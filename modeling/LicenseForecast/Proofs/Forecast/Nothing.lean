import LicenseForecast.Proofs.Forecast.Itinerary
import LicenseForecast.Proofs.Inquiry.Nothing

namespace LicenseForecast

/-!
# Where there is nothing to be found

That there is nothing means something else to a forecast from question to question
(`Query.uponNothing`).  Equipment above which there is nothing is unknown; without products there
are no rows; without users on either side the processors of a product count, and without users on
one side its row is left out.  The other questions must have an answer, and there it is a failure:

* `Request.forecast_settledBy` — what each question is settled by, step by step;
* `Request.rows_of_run` — the rows, product by product, in a world that may change between any two
  questions;
* `Request.forecast_uponNothing` — all that the answer brings about, at any place of any run.
-/

/-- What a forecast comes to as soon as the answer to a question is that there is nothing.  Nothing
    is settled by it where users are asked about. -/
def Query.uponNothing : Query → Option (Except Failure Forecast)
  | .hierarchy id typeName _ => some (.error (.unknownEquipment id typeName))
  | .products .. => some (.ok ⟨[]⟩)
  | .users .. => none
  | query => some (.error (.lookup query.lookup .noData))

open Inquiry (SettledBy GoesOn)

namespace Inquiry.SettledBy

/-- A metric must be there. -/
theorem metric_bind {family : Family} {name : String} {f : Metric → Inquiry Forecast}
    (hf : ∀ metric, SettledBy Query.uponNothing (f metric)) :
    SettledBy Query.uponNothing (metric family name >>= f) := by
  rw [Inquiry.metric_bind]
  refine .demand_bind rfl fun specs => ?_
  exact .ofExcept_bind (Metric.only_fails .unknownMetric .ambiguousMetric family name _) hf

/-- A chain may be missing, and then the equipment is unknown. -/
theorem chain_bind {forest : Forest} {rule : PooledRule} {id typeName : String}
    {f : Chain → Inquiry Forecast} (hf : ∀ chain, SettledBy Query.uponNothing (f chain)) :
    SettledBy Query.uponNothing (Chain.above forest rule id typeName >>= f) := by
  refine .checkpoint _ (.ask (.hierarchy id typeName rule.depth) (fun answer =>
    ofExcept (Chain.ofAnswer forest rule id typeName answer) >>= f) ?_ nofun fun answer _ => ?_)
  · intro result hresult
    cases hresult
    rfl
  · exact .ofExcept_bind (Chain.ofAnswer_fails .unknownEquipment (.lookup .hierarchy) forest rule id
      typeName answer) hf

/-- Products, and what follows from them. -/
theorem products_bind {id typeName : String} {depth : Nat} {rule : LicenseRule}
    {f : Option (List Product) → Inquiry Forecast} (hnone : f none = .done (.ok ⟨[]⟩))
    (hf : ∀ products, SettledBy Query.uponNothing (f (some products))) :
    SettledBy Query.uponNothing (Request.products id typeName depth rule >>= f) := by
  show SettledBy Query.uponNothing
    ((look >>= fun _ => seek (.products id typeName depth rule)) >>= f)
  refine .seek_bind ?_ (fun hopen => ?_) hf
  · intro result hresult
    cases hresult
    exact hnone
  · cases hopen

/-- Users of a product, and what follows from them.  Where there are none, it goes on. -/
theorem users_bind {chain : Chain} {product : Product} {rule : PooledRule} {readings : Readings}
    {f : Option (List NamedUser) → Inquiry Forecast}
    (hnone : (f none).GoesOn ∧ SettledBy Query.uponNothing (f none))
    (hf : ∀ users, SettledBy Query.uponNothing (f (some users))) :
    SettledBy Query.uponNothing (Request.users chain product rule readings >>= f) := by
  show SettledBy Query.uponNothing ((look >>= fun _ => seek (.users chain.top.id
    chain.top.typeName product.tag chain.productDepth rule readings)) >>= f)
  refine .seek_bind ?_ (fun _ => hnone) hf
  intro result hresult
  cases hresult

end Inquiry.SettledBy

namespace Request

/-! ### What each question is settled by -/

/-- What follows from the rows of some products cannot fail. -/
private theorem userRows_settledBy (rule : PooledRule) (usersPerProcessor : Nat)
    (splice : Formula.Splice) (chain : Chain) (old new : Readings) (products : List Product)
    (f : List Row → Forecast) :
    (userRows rule usersPerProcessor splice chain old new products >>= fun rows =>
        pure (f rows)).GoesOn ∧
      SettledBy Query.uponNothing
        (userRows rule usersPerProcessor splice chain old new products >>= fun rows =>
          pure (f rows)) := by
  induction products generalizing f with
  | nil => exact ⟨.done _, .pure _⟩
  | cons product rest ih =>
    simp only [userRows, bind_assoc, pure_bind]
    constructor
    · exact .ask _ _
    · -- the question about users after the change comes next, whatever is found before
      refine .users_bind ⟨.ask _ _, ?_⟩ fun oldUsers => ?_
      · exact .users_bind (ih _) fun newUsers => (ih _).2
      · exact .users_bind (ih _) fun newUsers => (ih _).2

/-- A rule that counts one machine alone is settled if no products are found. -/
private theorem direct_settledBy (request : Request) (rule : DirectRule) (old new : Readings) :
    SettledBy Query.uponNothing (direct request rule old new) := by
  have hfails := Formula.directLicenses_fails Failure.IsOwn.invalidAttribute rule
  refine .ofExcept_bind (hfails old) fun oldLicenses => ?_
  refine .ofExcept_bind (hfails new) fun newLicenses => ?_
  exact .products_bind rfl fun products => .pure _

/-- A rule that counts pools is settled if no products are found; the figures must be there. -/
private theorem pooled_settledBy (rule : PooledRule) (chain : Chain) (old new : Readings) :
    SettledBy Query.uponNothing (pooled rule chain old new) := by
  have hfails := Formula.contribution_fails Failure.IsOwn.invalidAttribute rule
  refine .ofExcept_bind (hfails old) fun oldContribution => ?_
  refine .ofExcept_bind (hfails new) fun newContribution => ?_
  refine .products_bind rfl fun products => ?_
  refine .demand_bind rfl fun oldTotal => .demand_bind rfl fun pool => ?_
  cases threshold? rule with
  | none => exact .pure _
  | some usersPerProcessor => exact (userRows_settledBy ..).2

/-- **What each question of a forecast is settled by** if there is nothing. -/
theorem forecast_settledBy (request : Request) :
    SettledBy Query.uponNothing request.forecast := by
  refine .ofExcept_bind (Family.ofRequest_fails .unsupportedFamily _) fun family => ?_
  refine .ofExcept_bind (Readings.beforeAndAfter_fails .invalidAttribute _) fun sides => ?_
  refine .demand_bind rfl fun types => ?_
  refine .ofExcept_bind (Forest.ofTypes_fails .invalidForest types) fun forest => ?_
  refine .discard_bind (checkType_fails .unknownType forest request.typeName) ?_
  refine .metric_bind fun metric => ?_
  refine .ofExcept_bind (Metric.resolve_fails .invalidMetric forest metric) fun rule => ?_
  refine .ofExcept_bind (checkBase_fails .wrongType rule request.typeName) fun _ => ?_
  cases rule with
  | direct rule => exact direct_settledBy request rule _ _
  | pooled rule => exact .chain_bind fun chain => pooled_settledBy rule chain _ _

end Request

/-! ### Rows in a world that changes -/

namespace Basis

section

variable (world : Inquiry.World) (i : Nat) (product : Product) (basis : Basis)

/-- What is answered about the users of the product in place `i` before the change.  Six questions
    come before users, and two are about each product. -/
def usersBeforeAt : Except LookupFault (List NamedUser) :=
  basis.usersBefore (world.inventory (6 + 2 * i)) product

/-- What is answered about the users of the product in place `i` after the change. -/
def usersAfterAt : Except LookupFault (List NamedUser) :=
  basis.usersAfter (world.inventory (6 + 2 * i + 1)) product

/-- What stands in the place of a product: its row, or nothing if its users are known on one side
    only. -/
def entryAt (totals : Formula.Splice) : Option Row :=
  if basis.threshold?.isNone ||
      saysNothing (basis.usersBeforeAt world i product)
        == saysNothing (basis.usersAfterAt world i product) then
    some (.of basis.metricName product
      (basis.licensesAt totals.oldTotal (listed (basis.usersBeforeAt world i product)))
      (basis.licensesAt totals.newTotal (listed (basis.usersAfterAt world i product))))
  else none

/-- Both answers about the users of a product are conclusive, where users count. -/
def AnsweredAt : Prop :=
  basis.threshold?.isSome →
    Conclusive (basis.usersBeforeAt world i product) ∧
      Conclusive (basis.usersAfterAt world i product)

end

variable {world : Inquiry.World} {totals : Formula.Splice} {basis : Basis} {i : Nat}
  {product : Product}

/-- Where users do not count, every product has its row. -/
theorem entries_of_threshold_none (hthreshold : basis.threshold? = none)
    (products : List Product) :
    (products.zipIdx.filterMap fun p => basis.entryAt world p.2 p.1 totals)
      = products.map fun product =>
          .of basis.metricName product totals.oldTotal totals.newTotal := by
  have hentry : (fun p : Product × Nat => basis.entryAt world p.2 p.1 totals)
      = some ∘ (Row.of basis.metricName · totals.oldTotal totals.newTotal) ∘ Prod.fst := by
    funext p
    simp only [entryAt, licensesAt, hthreshold]
    rfl
  rw [hentry, List.filterMap_eq_map, ← List.map_map, List.zipIdx_map_fst]

end Basis

namespace Request

variable {world : Inquiry.World}

/-- What is made of a product whose users count, from what was found about them. -/
private theorem entryAt_of_sought {rule : PooledRule} {usersPerProcessor : Nat}
    (hthreshold : threshold? rule = some usersPerProcessor) (totals : Formula.Splice)
    {chain : Chain} {old new : Readings} (oldC newC : Float) {product : Product} {i : Nat}
    {before after : Option (List NamedUser)}
    (hbefore : Failure.sought .users ((Basis.pooled rule chain old new oldC newC).usersBeforeAt
      world i product) = .ok before)
    (hafter : Failure.sought .users ((Basis.pooled rule chain old new oldC newC).usersAfterAt
      world i product) = .ok after) :
    (Basis.pooled rule chain old new oldC newC).AnsweredAt world i product ∧
      (Basis.pooled rule chain old new oldC newC).entryAt world i product totals
        = userRow rule usersPerProcessor totals product before after := by
  obtain ⟨hconclusive, rfl⟩ := sought_eq_ok.mp hbefore
  obtain ⟨hconclusive', rfl⟩ := sought_eq_ok.mp hafter
  refine ⟨fun _ => ⟨hconclusive, hconclusive'⟩, ?_⟩
  rw [Basis.userRow_eq]
  simp only [Basis.entryAt, Basis.licensesAt, Basis.threshold?, hthreshold]
  rfl

/-- **The rows of the products whose users count**: what stands in the place of each. -/
theorem userRows_of_run {rule : PooledRule} {usersPerProcessor : Nat}
    (hthreshold : threshold? rule = some usersPerProcessor) {totals : Formula.Splice}
    {chain : Chain} {old new : Readings} (oldC newC : Float) {products : List Product} {i : Nat}
    {rows : List Row}
    (h : ((userRows rule usersPerProcessor totals chain old new products).run world
      (6 + 2 * i)).2 = .ok rows) :
    (∀ p ∈ products.zipIdx i,
      (Basis.pooled rule chain old new oldC newC).AnsweredAt world p.2 p.1) ∧
    rows = (products.zipIdx i).filterMap fun p =>
      (Basis.pooled rule chain old new oldC newC).entryAt world p.2 p.1 totals := by
  induction products generalizing i rows with
  | nil =>
    cases h
    exact ⟨nofun, rfl⟩
  | cons product rest ih =>
    -- the two questions of this product, in the places `6 + 2 * i` and the next one
    obtain ⟨before, hbefore, h⟩ := Inquiry.run_seek_bind_ok h
    obtain ⟨after, hafter, h⟩ := Inquiry.run_seek_bind_ok h
    obtain ⟨later, hlater, h⟩ := Inquiry.run_bind_eq_ok.mp h
    cases h
    obtain ⟨hanswered, hentry⟩ := entryAt_of_sought hthreshold totals oldC newC hbefore hafter
    obtain ⟨hall, rfl⟩ := ih (i := i + 1) hlater
    rw [List.zipIdx_cons]
    constructor
    · intro p hp
      rcases List.mem_cons.mp hp with rfl | hp
      · exact hanswered
      · exact hall p hp
    · rw [List.filterMap_cons, hentry]
      cases userRow rule usersPerProcessor totals product before after <;> rfl

/-- Under a direct rule two questions come before the products. -/
private theorem length_approach_of_direct {request : Request} {inventory : Inventory}
    {rule : DirectRule} {oldLicenses newLicenses : Nat}
    (h : request.basis.result inventory none = .ok (.direct rule oldLicenses newLicenses)) :
    (request.approach inventory).length = 2 := by
  obtain ⟨family, _, _, forest, found, hfamily, hsides, hresolved, hbasis⟩ := basis_eq_ok.mp h
  rw [approach_of_sides hfamily hsides, hresolved]
  cases found with
  | direct rule => rfl
  | pooled rule =>
    obtain ⟨_, _, _, -, -, -, heq⟩ := Basis.of_pooled_eq_ok.mp hbasis
    cases heq

/-- What was found of the products, as the answers in a world tell it. -/
private theorem found_eq {answer : Except LookupFault (List Product)} {products : List Product}
    {found : Option (List Product)} (hfound : Failure.sought .products answer = .ok found)
    (hproducts : answer = .ok products) : found = some products := by
  subst hproducts
  exact (Except.ok.inj hfound).symm

/-- A forecast that succeeds has found its basis and an answer about products.  What is left of it
    is the rows of these. -/
theorem rowsFor_of_run {request : Request} {forecast : Forecast}
    (hok : (request.forecast.run world 0).2 = .ok forecast) :
    ∃ basis found, request.basis.result world.answers none = .ok basis ∧
      Failure.sought .products (basis.installed world.answers request) = .ok found ∧
      ((found.elim (pure ⟨[]⟩) (rowsFor · basis)).run world
        ((request.approach world.answers).length + 1)).2 = .ok forecast := by
  rw [forecast_eq] at hok
  obtain ⟨basis, hrun, hok⟩ := Inquiry.run_bind_eq_ok.mp hok
  have hbasis : request.basis.result world.answers none = .ok basis := by
    rcases request.basis_outcome world with ⟨cause, hcause⟩ | houtcome
    · cases hrun.symm.trans hcause
    · exact houtcome.symm.trans hrun
  -- what comes before the products is asked in full, which fixes the places of all that follows
  rw [(request.basis_follows world).complete _ hrun, Nat.zero_add] at hok
  cases basis with
  | direct rule oldLicenses newLicenses =>
    rw [length_approach_of_direct hbasis] at hok ⊢
    obtain ⟨found, hfound, hok⟩ := Inquiry.run_seek_bind_ok hok
    exact ⟨_, found, hbasis, hfound, by cases found <;> exact hok⟩
  | pooled rule chain old new oldC newC =>
    rw [(chain_of_basis hbasis).1] at hok ⊢
    obtain ⟨found, hfound, hok⟩ := Inquiry.run_seek_bind_ok hok
    exact ⟨_, found, hbasis, hfound, by cases found <;> exact hok⟩

/-- **Where the rows of a forecast that succeeds come from**: there are none for want of products,
    or some products were found. -/
theorem products_of_run {request : Request} {forecast : Forecast}
    (hok : (request.forecast.run world 0).2 = .ok forecast) :
    ∃ basis, request.basis.result world.answers none = .ok basis ∧
      (forecast.rows = [] ∨ ∃ products, basis.installed world.answers request = .ok products) := by
  obtain ⟨basis, found, hbasis, hfound, hok⟩ := rowsFor_of_run hok
  refine ⟨basis, hbasis, ?_⟩
  cases found with
  | none =>
    cases hok
    exact .inl rfl
  | some products => exact .inr ⟨products, Failure.sought_eq_some.mp hfound⟩

/-- **The rows of a forecast that succeeds**, in a world that may change between any two questions:
    what stands in the place of each product, from the answers given in their places. -/
theorem rows_of_run {request : Request} {basis : Basis} {products : List Product}
    {forecast : Forecast} (hbasis : request.basis.result world.answers none = .ok basis)
    (hproducts : basis.installed world.answers request = .ok products)
    (hok : (request.forecast.run world 0).2 = .ok forecast) :
    ∃ totals, basis.splice world.answers = .ok totals ∧
      (∀ p ∈ products.zipIdx, basis.AnsweredAt world p.2 p.1) ∧
      forecast.rows = products.zipIdx.filterMap fun p => basis.entryAt world p.2 p.1 totals := by
  obtain ⟨basis', found, hbasis', hfound, hok⟩ := rowsFor_of_run hok
  cases hbasis'.symm.trans hbasis
  cases found_eq hfound hproducts
  cases basis with
  | direct rule oldLicenses newLicenses =>
    cases hok
    refine ⟨_, rfl, fun _ _ h => absurd h Bool.false_ne_true, ?_⟩
    rw [Basis.entries_of_threshold_none rfl]
    rfl
  | pooled rule chain old new oldC newC =>
    rw [(chain_of_basis hbasis).1] at hok
    obtain ⟨total, htotal, hok⟩ := Inquiry.run_demand_bind_ok hok
    obtain ⟨pool, hpool, hok⟩ := Inquiry.run_demand_bind_ok hok
    have hsplice : (Basis.pooled rule chain old new oldC newC).splice world.answers
        = .ok (Formula.splice total pool oldC newC) := by
      -- the two figures that were demanded are those the splice is made of
      simp only [Basis.splice, bind_eq_ok, Failure.demanded_eq_ok, pure_eq_ok]
      exact ⟨total, htotal, pool, hpool, rfl⟩
    refine ⟨_, hsplice, ?_⟩
    cases hthreshold : threshold? rule with
    | none =>
      have hnone : (Basis.pooled rule chain old new oldC newC).threshold? = none := hthreshold
      simp only [hthreshold] at hok
      cases hok
      refine ⟨fun _ _ h => ?_, ?_⟩
      · rw [hnone] at h
        cases h
      · rw [Basis.entries_of_threshold_none hnone]
        rfl
    | some usersPerProcessor =>
      -- with users, each product was asked about twice, after the six lookups before
      simp only [hthreshold] at hok
      obtain ⟨rows, hrows, hok⟩ := Inquiry.run_bind_eq_ok.mp hok
      cases hok
      exact userRows_of_run (i := 0) hthreshold oldC newC hrows

end Request

/-! ### All that it brings about -/

/-- What it brings about in a run that there is nothing, at any place. -/
structure Request.UponNothing (request : Request) (world : Inquiry.World)
    (run : List Query × Except Failure Forecast) : Prop where
  /-- It settles the request, unless users are asked about. -/
  settled : ∀ k query result, run.1[k]? = some query →
    world.inventory k query = .error .noData → query.uponNothing = some result →
    run.1.length = k + 1 ∧ run.2 = result
  /-- Where users are asked about it is never the cause of a failure. -/
  users : ∀ k query, run.1[k]? = some query → world.inventory k query = .error .noData →
    query.lookup = .users → run.1.length = k + 1 →
    (∃ forecast, run.2 = .ok forecast) ∨ ∃ cause, run.2 = .error (.interrupted cause)
  /-- A failure that says that there is nothing comes from the last question, which was about types,
      metrics or licences. -/
  failed : ∀ lookup, run.2 = .error (.lookup lookup .noData) →
    lookup ≠ .hierarchy ∧ lookup ≠ .products ∧ lookup ≠ .users ∧
    ∃ k query, run.1[k]? = some query ∧ run.1.length = k + 1 ∧ query.lookup = lookup ∧
      world.inventory k query = .error .noData
  /-- Where users count, a product without any on either side has the row of its processors, and one
      without any on one side has none. -/
  rows : ∀ basis products forecast, request.basis.result world.answers none = .ok basis →
    basis.installed world.answers request = .ok products → run.2 = .ok forecast →
    ∃ totals, basis.splice world.answers = .ok totals ∧
      (forecast.rows = products.zipIdx.filterMap fun p => basis.entryAt world p.2 p.1 totals) ∧
      ∀ i product, products[i]? = some product →
        (basis.entryAt world i product totals = none ↔ basis.family = .nup ∧
          OneSided (basis.usersBeforeAt world i product) (basis.usersAfterAt world i product)) ∧
        ∀ usersPerProcessor, basis.threshold? = some usersPerProcessor →
          basis.usersBeforeAt world i product = .error .noData →
          basis.usersAfterAt world i product = .error .noData →
          basis.entryAt world i product totals = some (.of basis.metricName product
            (min Decimal.unsignedMax (totals.oldTotal * usersPerProcessor))
            (min Decimal.unsignedMax (totals.newTotal * usersPerProcessor)))

namespace Basis

variable {world : Inquiry.World} {totals : Formula.Splice} {basis : Basis} {i : Nat}
  {product : Product}

/-- A product has no row exactly if its users count and are known on one side only. -/
theorem entryAt_eq_none (hfamily : basis.threshold?.isSome ↔ basis.family = .nup)
    (hanswered : basis.AnsweredAt world i product) :
    basis.entryAt world i product totals = none ↔ basis.family = .nup ∧
      OneSided (basis.usersBeforeAt world i product) (basis.usersAfterAt world i product) := by
  rw [← hfamily, ← incomparable_iff hanswered]
  unfold entryAt
  rw [ite_eq_right_iff, Bool.eq_false_iff]
  constructor
  · intro h hcomparable
    cases h hcomparable
  · intro h hcomparable
    exact absurd hcomparable h

/-- A product without users on either side counts by its processors. -/
theorem entryAt_of_nobody {usersPerProcessor : Nat}
    (hthreshold : basis.threshold? = some usersPerProcessor)
    (hbefore : basis.usersBeforeAt world i product = .error .noData)
    (hafter : basis.usersAfterAt world i product = .error .noData) :
    basis.entryAt world i product totals = some (.of basis.metricName product
      (min Decimal.unsignedMax (totals.oldTotal * usersPerProcessor))
      (min Decimal.unsignedMax (totals.newTotal * usersPerProcessor))) := by
  simp only [entryAt, licensesAt, hthreshold, hbefore, hafter]
  rfl

end Basis

/-- **What it brings about that there is nothing**, whatever is asked for and whatever is answered,
    in a world that may change between any two questions: no rows in the answer about products, an
    unknown equipment in that about the equipment above, a decision about one row in those about
    users.  Only where types, metrics and licences are asked about is it a failure of the lookup,
    and nothing else is. -/
theorem Request.forecast_uponNothing (request : Request) (world : Inquiry.World) :
    request.UponNothing world (request.forecast.run world 0) := by
  have hsettledBy := request.forecast_settledBy
  constructor
  case settled =>
    intro k query result hquery hanswer hupon
    exact hsettledBy.run_settled hquery (by rwa [Nat.zero_add]) hupon
  case users =>
    intro k query hquery hanswer hlookup hlast
    -- a question about users settles nothing
    have hupon : query.uponNothing = none := by
      cases query <;> first | rfl | cases hlookup
    exact hsettledBy.run_open hquery (by rwa [Nat.zero_add]) hupon hlast
  case failed =>
    intro lookup hfailure
    obtain ⟨k, query, hquery, hlength, hanswer, hupon⟩ := hsettledBy.nothing_of_run hfailure
    rw [Nat.zero_add] at hanswer
    -- only what is demanded fails upon nothing
    have hkinds : lookup ≠ .hierarchy ∧ lookup ≠ .products ∧ lookup ≠ .users ∧
        query.lookup = lookup := by
      cases query <;> cases hupon <;> exact ⟨nofun, nofun, nofun, rfl⟩
    obtain ⟨hhierarchy, hproducts, husers, hsame⟩ := hkinds
    exact ⟨hhierarchy, hproducts, husers, k, query, hquery, hlength, hsame, hanswer⟩
  case rows =>
    intro basis products forecast hbasis hproducts hok
    obtain ⟨totals, htotals, hanswered, hrows⟩ := rows_of_run hbasis hproducts hok
    refine ⟨totals, htotals, hrows, fun i product hproduct => ⟨?_, ?_⟩⟩
    · have hmem : (product, i) ∈ products.zipIdx := List.mem_zipIdx_iff_getElem?.mpr hproduct
      exact Basis.entryAt_eq_none (threshold_isSome_of_basis hbasis) (hanswered _ hmem)
    · intro usersPerProcessor hthreshold hbefore hafter
      exact Basis.entryAt_of_nobody hthreshold hbefore hafter

/-! ### Answers that there is nothing where something is needed -/

/-- The server, with nothing to be found by one kind of question. -/
def oneServer.without (lookup : Lookup) : Inventory := fun query =>
  if query.lookup = lookup then .error .noData else oneServer query

/-- **It can be a failure that there is nothing.** -/
theorem oneServer_without : ¬ ∀ (request : Request) (world : Inquiry.World) (lookup : Lookup),
    (request.forecast.run world 0).2 ≠ .error (.lookup lookup .noData) := by
  intro hnever
  have hfailure : ((oneServer.request 2.0 1.0).forecast.run
      (.still (oneServer.without .computedLicenses)) 0).2
        = .error (.lookup .computedLicenses .noData) := by
    decide +kernel
  exact hnever _ _ _ hfailure

/-- It is one of each question that must have an answer. -/
example : ∀ lookup ∈ [Lookup.equipmentTypes, .metrics .nup, .computedLicenses, .pooledLicenses],
    (oneServer.request 2.0 1.0).forecast.result (oneServer.without lookup) none
      = .error (.lookup lookup .noData) := by
  decide +kernel

end LicenseForecast
