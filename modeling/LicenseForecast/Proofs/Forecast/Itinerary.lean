import LicenseForecast.Proofs.Chain
import LicenseForecast.Proofs.Forecast.Cancelled
import LicenseForecast.Proofs.Forecast.PerProduct
import LicenseForecast.Proofs.Formula.Operands
import LicenseForecast.Proofs.Inquiry.Plan

namespace LicenseForecast

/-!
# What a forecast asks

The questions of a forecast and their order are known from the request and the answers to the
first of them (`Request.itinerary`).  Whatever an inventory answers, and whether or not its
answers change between two questions:

* `Request.basis_follows`, `Request.rowsOn_follows` — the two halves of a forecast ask what the
  itinerary says;
* `Basis.of_unreadable` — an attribute that the formula cannot read is reported by the first half,
  which does not ask for products;
* `Request.forecast_course` — all that is known of a run.
-/

/-! ### The itinerary -/

/-- How many questions a forecast asks before this one.  Users are asked about last, product by
    product. -/
def Query.place : Query → Nat
  | .equipmentTypes => 0
  | .metrics _ => 1
  | .hierarchy .. => 2
  | .products _ _ _ (.direct _) => 2
  | .products _ _ _ (.pooled _) => 3
  | .computedLicenses .. => 4
  | .pooledLicenses .. => 5
  | .users .. => 6

/-- What a forecast is answered in a world: each answer is the one given in its place. -/
def Inquiry.World.answers (world : Inquiry.World) : Inventory :=
  fun query => world.inventory query.place query

/-- What is asked about the users of a product, before and after. -/
def Product.userQueries (chain : Chain) (rule : PooledRule) (old new : Readings)
    (product : Product) : List Query :=
  let depth := min maxDepth (rule.depth + 1)
  [.users chain.top.id rule.top.name product.tag depth rule old,
    .users chain.top.id rule.top.name product.tag depth rule new]

/-- What is asked about a chain: the products below its top, then the total of the top and the
    figures of the pool, and the users of each product only in the family that counts them. -/
def Chain.questions (answers : Inventory) (rule : PooledRule) (old new : Readings)
    (chain : Chain) : List Query :=
  let depth := min maxDepth (rule.depth + 1)
  .products chain.top.id rule.top.name depth (.pooled rule) ::
    match answers (.products chain.top.id rule.top.name depth (.pooled rule)) with
    | .error _ => []
    | .ok products =>
      .computedLicenses chain.top.id rule.top.name rule ::
        .pooledLicenses chain.aggregate.id rule.aggregate.name rule ::
          if rule.family = .nup then products.flatMap (Product.userQueries chain rule old new)
          else []

namespace Request

/-- What a forecast asks under a rule: about the products of the equipment itself under a direct
    one, and about the chain above the equipment under a pooled one. -/
def questionsUnder (request : Request) (answers : Inventory) (forest : Forest)
    (old new : Readings) : LicenseRule → List Query
  | .direct rule => [.products request.equipmentId request.typeName 1 (.direct rule)]
  | .pooled rule =>
    .hierarchy request.equipmentId request.typeName rule.depth ::
      match Chain.ofAnswer forest rule request.equipmentId request.typeName
          (answers (.hierarchy request.equipmentId request.typeName rule.depth)) with
      | .error _ => []
      | .ok chain => chain.questions answers rule old new

/-- All that a forecast asks if nothing goes wrong, and nothing if the request itself is at
    fault. -/
def itinerary (request : Request) (answers : Inventory) : List Query :=
  match Family.ofRequest request.familyText, Readings.beforeAndAfter request.overrides with
  | .ok family, .ok (old, new) =>
    .equipmentTypes :: .metrics family ::
      match request.resolved answers family with
      | .error _ => []
      | .ok (forest, rule) => request.questionsUnder answers forest old new rule
  | _, _ => []

/-- The part of the itinerary that comes before the products. -/
def approach (request : Request) (answers : Inventory) : List Query :=
  (request.itinerary answers).takeWhile (·.lookup ≠ .products)

/-- The part of the itinerary that depends on a basis. -/
def questionsOn (request : Request) (answers : Inventory) : Basis → List Query
  | .direct rule _ _ => [.products request.equipmentId request.typeName 1 (.direct rule)]
  | .pooled rule chain old new _ _ => chain.questions answers rule old new

/-! ### Up to the products -/

section

variable {request : Request} {inventory : Inventory}

/-- Where family and overrides are in order, the types and the metrics are asked for first. -/
theorem itinerary_of_sides {family : Family} {old new : Readings}
    (hfamily : Family.ofRequest request.familyText = .ok family)
    (hsides : Readings.beforeAndAfter request.overrides = .ok (old, new)) :
    request.itinerary inventory = .equipmentTypes :: .metrics family ::
      match request.resolved inventory family with
      | .error _ => []
      | .ok (forest, rule) => request.questionsUnder inventory forest old new rule := by
  unfold itinerary
  rw [hfamily, hsides]

/-- On the way to the products only the hierarchy is asked for besides, and for pools alone. -/
theorem approach_of_sides {family : Family} {old new : Readings}
    (hfamily : Family.ofRequest request.familyText = .ok family)
    (hsides : Readings.beforeAndAfter request.overrides = .ok (old, new)) :
    request.approach inventory = .equipmentTypes :: .metrics family ::
      match request.resolved inventory family with
      | .ok (_, .pooled rule) => [.hierarchy request.equipmentId request.typeName rule.depth]
      | _ => [] := by
  unfold approach
  rw [itinerary_of_sides hfamily hsides]
  cases request.resolved inventory family with
  | error failure => rfl
  | ok found =>
    obtain ⟨forest, rule | rule⟩ := found
    · simp only [questionsUnder]
      cases Chain.ofAnswer forest rule request.equipmentId request.typeName
        (inventory (.hierarchy request.equipmentId request.typeName rule.depth)) <;> rfl
    · rfl

/-- A request whose family or overrides are rejected asks nothing. -/
theorem approach_of_rejected
    (h : ∀ family sides, ¬ (Family.ofRequest request.familyText = .ok family ∧
      Readings.beforeAndAfter request.overrides = .ok sides)) :
    request.approach inventory = [] := by
  unfold approach itinerary
  split
  next hfamily hsides => exact absurd ⟨hfamily, hsides⟩ (h _ _)
  · rfl

/-- A question before the products stands in its place. -/
theorem place_of_approach {k : Nat} {query : Query}
    (h : (request.approach inventory)[k]? = some query) : query.place = k := by
  by_cases hok : ∃ family sides, Family.ofRequest request.familyText = .ok family ∧
      Readings.beforeAndAfter request.overrides = .ok sides
  · obtain ⟨family, ⟨old, new⟩, hfamily, hsides⟩ := hok
    rw [approach_of_sides hfamily hsides] at h
    match k with
    | 0 =>
      cases h
      rfl
    | 1 =>
      cases h
      rfl
    | k + 2 =>
      simp only [List.getElem?_cons_succ] at h
      split at h
      · cases k with
        | zero =>
          cases h
          rfl
        | succ k => cases h
      · cases h
  · rw [approach_of_rejected fun family sides h => hok ⟨family, sides, h⟩] at h
    cases h

/-- Products are not asked for on the way to them. -/
theorem lookup_of_mem_approach {query : Query} (h : query ∈ request.approach inventory) :
    query.lookup ≠ .products := by
  have hbefore := List.mem_takeWhile_imp h
  simpa using hbefore

/-- The itinerary is the approach and the questions on the basis, if there is one. -/
theorem itinerary_of_basis {basis : Basis} (h : request.basis.result inventory none = .ok basis) :
    request.itinerary inventory
      = request.approach inventory ++ request.questionsOn inventory basis := by
  obtain ⟨family, old, new, forest, rule, hfamily, hsides, hresolved, hbasis⟩ := basis_eq_ok.mp h
  rw [approach_of_sides hfamily hsides, itinerary_of_sides hfamily hsides, hresolved]
  cases rule with
  | direct rule =>
    obtain ⟨_, _, -, -, rfl⟩ := Basis.of_direct_eq_ok.mp hbasis
    rfl
  | pooled rule =>
    obtain ⟨chain, _, _, hchain, -, -, rfl⟩ := Basis.of_pooled_eq_ok.mp hbasis
    simp only [questionsUnder, hchain]
    rfl

end

end Request

namespace Inquiry.Follows

variable {world : World} {asked : Nat} {rest : List Query} {β : Type}

/-- A request that asks each question in its place comes to what its answers make of it, unless it
    is interrupted. -/
theorem outcome {α : Type} {x : Inquiry α} (h : Follows world 0 rest x)
    (hplace : ∀ (k : Nat) (query : Query), rest[k]? = some query → query.place = k) :
    (∃ cause, (x.run world 0).2 = .error (.interrupted cause)) ∨
      (x.run world 0).2 = x.result world.answers none := by
  refine Inquiry.result_of_answers fun k query hquery => ?_
  obtain ⟨hk, rfl⟩ := List.getElem?_eq_some_iff.mp hquery
  have hplan := List.prefix_iff_getElem?.mp h.inOrder k hk
  show _ = world.inventory (Query.place _) _
  rw [hplace k _ hplan, Nat.zero_add]

/-- A check that has no result adds no question. -/
theorem discard_bind {α : Type} {result : Except Failure α} {x : Inquiry β}
    (hx : ∀ a, result = .ok a → Follows world asked rest x) :
    Follows world asked rest (discard (ofExcept result) >>= fun _ => x) := by
  cases result with
  | ok a => exact hx a rfl
  | error failure => exact failed failure

/-- Asking for a metric is one question. -/
theorem metric_bind {family : Family} {name : String} {f : Metric → Inquiry β}
    (hf : ∀ specs metric, world.inventory asked (.metrics family) = .ok specs →
      Metric.only family name (specs.map (Metric.ofSpec family)) = .ok metric →
      Follows world (asked + 1) rest (f metric)) :
    Follows world asked (.metrics family :: rest) (metric family name >>= f) := by
  rw [Inquiry.metric_bind]
  exact .demand_bind fun specs hspecs => .ofExcept_bind fun m hm => hf specs m hspecs hm

/-- Asking for a chain is one question. -/
theorem chain_bind {forest : Forest} {rule : PooledRule} {id typeName : String}
    {f : Chain → Inquiry β}
    (hf : ∀ chain, Chain.ofAnswer forest rule id typeName
      (world.inventory asked (.hierarchy id typeName rule.depth)) = .ok chain →
      Follows world (asked + 1) rest (f chain)) :
    Follows world asked (.hierarchy id typeName rule.depth :: rest)
      (Chain.above forest rule id typeName >>= f) := by
  have hquestions : Chain.above forest rule id typeName >>= f
      = .checkpoint (.ask (.hierarchy id typeName rule.depth) fun answer =>
          ofExcept (Chain.ofAnswer forest rule id typeName answer) >>= f) := rfl
  rw [hquestions]
  exact checkpoint (ask (ofExcept_bind hf))

end Inquiry.Follows

namespace Request

open Inquiry (Follows)

/-- The search for a rule asks for the types and for the metrics. -/
theorem ruling_follows (request : Request) (family : Family) (world : Inquiry.World) :
    Follows world 0 [.equipmentTypes, .metrics family] (request.ruling family) := by
  refine .demand_bind fun types _ => .ofExcept_bind fun forest _ => .discard_bind fun i _ => ?_
  refine .metric_bind fun specs metric _ _ => ?_
  exact .ofExcept_bind fun rule _ => .ofExcept_bind fun _ _ => .pure _

/-- The rule that is found in a world is that of the answers given there. -/
theorem resolved_of_run {request : Request} {family : Family} {world : Inquiry.World}
    {found : Forest × LicenseRule} (h : ((request.ruling family).run world 0).2 = .ok found) :
    request.resolved world.answers family = .ok found := by
  have houtcome := (request.ruling_follows family world).outcome fun k query hquery => by
    match k with
    | 0 | 1 => cases hquery; rfl
    | k + 2 => cases hquery
  rw [h, ruling_result] at houtcome
  rcases houtcome with ⟨cause, hcause⟩ | hresolved
  · cases hcause
  · exact hresolved.symm

/-- **The first half of a forecast** asks what lies before the products. -/
theorem basis_follows (request : Request) (world : Inquiry.World) :
    Follows world 0 (request.approach world.answers) request.basis := by
  rw [basis_eq_ruling]
  refine .ofExcept_bind fun family hfamily => .ofExcept_bind fun sides hsides => ?_
  obtain ⟨old, new⟩ := sides
  rw [approach_of_sides hfamily (mapError_eq_ok.mp hsides)]
  refine (request.ruling_follows family world).bind fun found hfound => ?_
  rw [resolved_of_run hfound]
  obtain ⟨forest, rule | rule⟩ := found
  · exact .chain_bind fun _ _ => .ofExcept_bind fun _ _ => .ofExcept_bind fun _ _ => .pure _
  · exact .ofExcept_bind fun _ _ => .ofExcept_bind fun _ _ => .pure _

/-- What the first half of a forecast comes to, unless it is interrupted. -/
theorem basis_outcome (request : Request) (world : Inquiry.World) :
    (∃ cause, (request.basis.run world 0).2 = .error (.interrupted cause)) ∨
      (request.basis.run world 0).2 = request.basis.result world.answers none :=
  (request.basis_follows world).outcome fun _ _ => place_of_approach

/-! ### From the products on -/

section

variable {request : Request} {inventory : Inventory}

/-- The questions before the products, and the ends of the chain if there is one. -/
theorem chain_of_basis {rule : PooledRule} {chain : Chain} {old new : Readings}
    {oldContribution newContribution : Float}
    (h : request.basis.result inventory none
      = .ok (.pooled rule chain old new oldContribution newContribution)) :
    (request.approach inventory).length = 3 ∧ chain.top.typeName = rule.top.name ∧
      chain.aggregate.typeName = rule.aggregate.name ∧
      chain.productDepth = min maxDepth (rule.depth + 1) := by
  obtain ⟨family, _, _, forest, found, hfamily, hsides, hresolved, hbasis⟩ := basis_eq_ok.mp h
  cases found with
  | direct rule =>
    obtain ⟨_, _, -, -, heq⟩ := Basis.of_direct_eq_ok.mp hbasis
    cases heq
  | pooled rule =>
    obtain ⟨_, _, _, hchain, -, -, heq⟩ := Basis.of_pooled_eq_ok.mp hbasis
    cases heq
    obtain ⟨_, _, _, -, -, -, -, hrule, -⟩ := resolved_eq_ok hresolved
    obtain ⟨_, _, -, hfits⟩ := Metric.fits_of_rule hrule
    obtain ⟨htop, haggregate⟩ := Chain.typeName_ends hfits hchain
    -- the hierarchy is the third lookup, after types and metrics
    refine ⟨?_, htop, haggregate, (Chain.typeNames_of_ofAnswer hchain).2⟩
    rw [approach_of_sides hfamily hsides, hresolved]
    rfl

end

/-- **Users are asked about product by product**, before and after the change. -/
theorem userRows_follows {rule : PooledRule} {chain : Chain}
    (htop : chain.top.typeName = rule.top.name)
    (hdepth : chain.productDepth = min maxDepth (rule.depth + 1)) (world : Inquiry.World)
    (asked usersPerProcessor : Nat) (splice : Formula.Splice) (old new : Readings)
    (products : List Product) :
    Follows world asked (products.flatMap (Product.userQueries chain rule old new))
      (userRows rule usersPerProcessor splice chain old new products) := by
  induction products generalizing asked with
  | nil => exact .pure []
  | cons product rest ih =>
    rw [List.flatMap_cons, Product.userQueries, ← htop, ← hdepth]
    refine .seek_bind fun oldUsers _ => .seek_bind fun newUsers _ => ?_
    have hrest := (ih (asked + 1 + 1)).bind fun rows _ =>
      .pure ((userRow rule usersPerProcessor splice product oldUsers newUsers).toList ++ rows)
    rw [List.append_nil] at hrest
    exact hrest

/-- **The second half of a forecast** asks about the products and all that follows from them. -/
theorem rowsOn_follows {request : Request} {world : Inquiry.World} {basis : Basis}
    (h : request.basis.result world.answers none = .ok basis) :
    Follows world (request.approach world.answers).length
      (request.questionsOn world.answers basis) (request.rowsOn basis) := by
  cases basis with
  | direct rule oldLicenses newLicenses =>
    -- direct families ask for products and for nothing else
    refine .seek_bind fun found _ => ?_
    cases found <;> exact .pure _
  | pooled rule chain old new oldContribution newContribution =>
    -- the questions name what the chain is to be; on this chain they name what it is
    obtain ⟨hlength, htop, haggregate, hdepth⟩ := chain_of_basis h
    rw [hlength, questionsOn, Chain.questions, ← htop, ← haggregate, ← hdepth]
    refine .seek_bind fun found hfound => ?_
    replace hfound : Failure.sought .products (world.answers (.products chain.top.id
      chain.top.typeName chain.productDepth (.pooled rule))) = .ok found := hfound
    cases found with
    | none =>
      rw [Failure.sought_eq_none.mp hfound]
      exact .pure _
    | some products =>
      rw [Failure.sought_eq_some.mp hfound]
      refine .demand_bind fun oldTotal _ => .demand_bind fun pool _ => ?_
      have husers : (threshold? rule).isSome ↔ rule.family = .nup := threshold_isSome_of_basis h
      cases hthreshold : threshold? rule with
      | none =>
        rw [hthreshold] at husers
        rw [if_neg fun hfamily => absurd (husers.mpr hfamily) Bool.false_ne_true]
        exact .pure _
      | some usersPerProcessor =>
        rw [hthreshold] at husers
        rw [if_pos (husers.mp rfl)]
        -- each product adds two questions, and the rows at the end add none
        have hrows := (userRows_follows htop hdepth world (3 + 1 + 1 + 1) usersPerProcessor
          (Formula.splice oldTotal pool oldContribution newContribution) old new products).bind
          fun rows _ => .pure (Forecast.mk rows)
        rw [List.append_nil] at hrows
        exact hrows

/-- A forecast asks what its itinerary says. -/
theorem forecast_follows (request : Request) (world : Inquiry.World) :
    Follows world 0 (request.itinerary world.answers) request.forecast := by
  rw [forecast_eq]
  obtain ⟨rest, hrest⟩ : request.approach world.answers <+: request.itinerary world.answers :=
    List.takeWhile_prefix _
  rw [← hrest]
  refine (request.basis_follows world).bind fun basis hbasis => ?_
  have hok : request.basis.result world.answers none = .ok basis := by
    rcases request.basis_outcome world with ⟨cause, hcause⟩ | houtcome
    · cases hbasis.symm.trans hcause
    · exact houtcome.symm.trans hbasis
  rw [itinerary_of_basis hok, List.append_cancel_left_eq] at hrest
  rw [hrest, Nat.zero_add]
  exact rowsOn_follows hok

end Request

/-! ### Attributes that the formula cannot read -/

namespace Basis

variable {inventory : Inventory} {request : Request} {forest : Forest} {old new : Readings}
  {rule : LicenseRule} {fault : ModelFault}

/-- **An attribute that the formula cannot read is reported** once there is a chain, on the side
    before the change first. -/
theorem of_unreadable (hfault : (rule.unreadable? old).or (rule.unreadable? new) = some fault)
    (hchain : ∀ pooled, rule = .pooled pooled → ∃ chain,
      Chain.ofAnswer forest pooled request.equipmentId request.typeName
        (inventory (.hierarchy request.equipmentId request.typeName pooled.depth)) = .ok chain) :
    Basis.of inventory request forest old new rule = .error (.invalidAttribute fault) := by
  cases rule with
  | direct rule =>
    obtain ⟨_, hold⟩ := Formula.directLicenses_eq rule old
    obtain ⟨_, hnew⟩ := Formula.directLicenses_eq rule new
    exact Formula.both_of_unreadable hold hnew hfault fun oldLicenses newLicenses =>
      .ok (Basis.direct rule oldLicenses newLicenses)
  | pooled rule =>
    obtain ⟨chain, hchain⟩ := hchain rule rfl
    obtain ⟨_, hold⟩ := Formula.contribution_eq rule old
    obtain ⟨_, hnew⟩ := Formula.contribution_eq rule new
    simp only [Basis.of, hchain]
    exact Formula.both_of_unreadable hold hnew hfault fun oldContribution newContribution =>
      .ok (Basis.pooled rule chain old new oldContribution newContribution)

/-- There is no basis where the formula cannot read an attribute, chain or no chain. -/
theorem exists_error_of_unreadable
    (hfault : (rule.unreadable? old).or (rule.unreadable? new) = some fault) :
    ∃ failure, Basis.of inventory request forest old new rule = .error failure := by
  -- an unreadable attribute is met first, except that the chain has to be resolved before it
  cases rule with
  | direct rule =>
    refine ⟨_, of_unreadable hfault fun pooled heq => ?_⟩
    cases heq
  | pooled rule =>
    cases hchain : Chain.ofAnswer forest rule request.equipmentId request.typeName
        (inventory (.hierarchy request.equipmentId request.typeName rule.depth)) with
    | error failure =>
      refine ⟨failure, ?_⟩
      simp only [Basis.of, hchain]
      rfl
    | ok chain =>
      refine ⟨_, of_unreadable hfault fun pooled heq => ?_⟩
      cases heq
      exact ⟨chain, hchain⟩

end Basis

/-! ### The course of a forecast -/

namespace Metric

/-- The only metric of a name is one of the list and has the name. -/
theorem of_only {family : Family} {name : String} {metrics : List Metric} {m : Metric}
    (h : Metric.only family name metrics = .ok m) : m ∈ metrics ∧ m.name = name := by
  have hmem : m ∈ metrics.filter (·.name == name) := by
    rw [only_eq_ok_iff.mp h]
    exact List.mem_singleton_self m
  obtain ⟨hmetrics, hname⟩ := List.mem_filter.mp hmem
  exact ⟨hmetrics, beq_iff_eq.mp hname⟩

/-- A metric that is made of data of a family is of that family. -/
theorem family_ofSpec (family : Family) (spec : family.Spec) :
    (Metric.ofSpec family spec).family = family := by
  cases family <;> rfl

end Metric

/-- A rule is that of a metric with the given family and name: its end and aggregation types are
    those of the metric, and its depth is the distance from the metric's start type up to its end
    type. -/
def PooledRule.Spans (forest : Forest) (family : Family) (name : String) (rule : PooledRule) :
    Prop :=
  ∃ (metric : Metric) (m : PooledMetric) (start top aggregate : Nat), metric.name = name ∧
    metric.family = family ∧ metric.pooled? = some m ∧
    forest.indexOfId? m.startTypeId = some start ∧ forest.indexOfId? m.endTypeId = some top ∧
    forest.get? top = some rule.top ∧ forest.indexOfId? m.aggregateTypeId = some aggregate ∧
    forest.get? aggregate = some rule.aggregate ∧ forest.distance start top = some rule.depth ∧
    rule.family = family

namespace Request

/-- What is known of the questions that a forecast asks in a world, and of its result. -/
structure Course (request : Request) (world : Inquiry.World)
    (run : List Query × Except Failure Forecast) : Prop where
  /-- The questions are the first of the itinerary. -/
  inOrder : run.1 <+: request.itinerary world.answers
  /-- A forecast that succeeds has asked all of them. -/
  complete : ∀ forecast, run.2 = .ok forecast → run.1 = request.itinerary world.answers
  /-- The depth and the types in the questions are those of the metric that is asked for. -/
  depth : ∀ family forest rule, Family.ofRequest request.familyText = .ok family →
    request.resolved world.answers family = .ok (forest, .pooled rule) →
    rule.Spans forest family request.metricName
  /-- Nothing is asked for a family that there is not. -/
  unknownFamily : Family.named? request.familyText = none →
    run = ([], .error (.unsupportedFamily request.familyText))
  /-- Nothing is asked with a value of a wrong kind. -/
  mistypedOverride : ∀ family fault, Family.named? request.familyText = some family →
    Readings.beforeAndAfter request.overrides = .error fault →
    run = ([], .error (.invalidAttribute fault))
  /-- Products are not asked for if the formula cannot read an attribute, which is reported unless
      there is no chain or the request is interrupted. -/
  unreadable : ∀ family old new forest rule fault,
    Family.ofRequest request.familyText = .ok family →
    Readings.beforeAndAfter request.overrides = .ok (old, new) →
    request.resolved world.answers family = .ok (forest, rule) →
    (rule.unreadable? old).or (rule.unreadable? new) = some fault →
    (∀ query ∈ run.1, query.lookup ≠ .products) ∧
      ((∀ pooled, rule = .pooled pooled → ∃ chain,
          Chain.ofAnswer forest pooled request.equipmentId request.typeName
            (world.answers (.hierarchy request.equipmentId request.typeName pooled.depth))
              = .ok chain) →
        (∃ cause, world.interruption run.1.length = some cause ∧
          run.2 = .error (.interrupted cause)) ∨ run.2 = .error (.invalidAttribute fault))
  /-- A question that has no answer for another reason than that there is nothing is the last one,
      and the failure names it. -/
  lastFault : ∀ k query fault, run.1[k]? = some query →
    world.inventory k query = .error fault → fault ≠ .noData →
    run.1.length = k + 1 ∧ run.2 = .error (query.failure fault)

/-- The rule of a request is that of a metric with the family and name that are asked for. -/
theorem metric_of_resolved {request : Request} {inventory : Inventory} {family : Family}
    {forest : Forest} {rule : LicenseRule}
    (h : request.resolved inventory family = .ok (forest, rule)) :
    ∃ metric : Metric, metric.family = family ∧ metric.name = request.metricName ∧
      metric.rule forest = .ok rule := by
  obtain ⟨_, _, metric, -, -, -, honly, hrule, -⟩ := resolved_eq_ok h
  obtain ⟨hmem, hname⟩ := Metric.of_only honly
  obtain ⟨spec, -, rfl⟩ := List.mem_map.mp hmem
  exact ⟨_, Metric.family_ofSpec family spec, hname, hrule⟩

/-- A pooled rule reaches from the start type of its metric up to the end type. -/
private theorem depth_of_resolved {request : Request} {inventory : Inventory} {family : Family}
    {forest : Forest} {rule : PooledRule}
    (h : request.resolved inventory family = .ok (forest, .pooled rule)) :
    rule.Spans forest family request.metricName := by
  obtain ⟨metric, hfamily, hname, hrule⟩ := metric_of_resolved h
  obtain ⟨m, _, hpooled, hfits⟩ := Metric.fits_of_rule hrule
  obtain ⟨top, start, htop, htopType, -, hstart, hdistance⟩ := hfits.exists_top
  obtain ⟨aggregate, haggregate, haggregateType, -⟩ := hfits.exists_aggregate
  exact ⟨metric, m, start, top, aggregate, hname, hfamily, hpooled, hstart,
    htop, Forest.get?_of_getD htop htopType, haggregate,
    Forest.get?_of_getD haggregate haggregateType, hdistance, hfits.family_eq.trans hfamily⟩

/-- A forecast that has no basis asks nothing after the approach, and fails as the basis does. -/
theorem run_of_basis_error {request : Request} {world : Inquiry.World} {failure : Failure}
    (h : request.basis.result world.answers none = .error failure) :
    (request.forecast.run world 0).1 <+: request.approach world.answers ∧
      ((∃ cause, world.interruption (request.forecast.run world 0).1.length = some cause ∧
        (request.forecast.run world 0).2 = .error (.interrupted cause)) ∨
          (request.forecast.run world 0).2 = .error failure) := by
  have hplan := (request.basis_follows world).inOrder
  rcases request.basis_outcome world with ⟨cause, hcause⟩ | houtcome
  · have hrun : request.forecast.run world 0
        = ((request.basis.run world 0).1, .error (.interrupted cause)) := by
      rw [forecast_eq, Inquiry.run_bind_error hcause]
    have hwhere := request.forecast_orderly.interruption_of_run (congrArg Prod.snd hrun)
    rw [Nat.zero_add] at hwhere
    refine ⟨?_, .inl ⟨cause, hwhere, congrArg Prod.snd hrun⟩⟩
    rw [hrun]
    exact hplan
  · rw [forecast_eq, Inquiry.run_bind_error (houtcome.trans h)]
    exact ⟨hplan, .inr rfl⟩

/-- **The course of a forecast**, whatever it is asked for and whatever it is answered. -/
theorem forecast_course (request : Request) (world : Inquiry.World) :
    request.Course world (request.forecast.run world 0) where
  inOrder := (request.forecast_follows world).inOrder
  complete := (request.forecast_follows world).complete
  depth family forest rule _ hresolved := depth_of_resolved hresolved
  unknownFamily hfamily := by
    have hfailure : Family.ofRequest request.familyText
        = .error (.unsupportedFamily request.familyText) := by
      unfold Family.ofRequest
      rw [hfamily]
    unfold forecast
    rw [hfailure]
    rfl
  mistypedOverride family fault hnamed hsides := by
    have hfamily : Family.ofRequest request.familyText = .ok family := by
      unfold Family.ofRequest
      rw [hnamed]
    unfold forecast
    rw [hfamily, hsides]
    rfl
  unreadable family old new forest rule fault hfamily hsides hresolved hfault := by
    have hbasis : request.basis.result world.answers none
        = Basis.of world.answers request forest old new rule :=
      basis_of_resolved hfamily hsides hresolved
    constructor
    · intro query hquery
      obtain ⟨failure, hfailure⟩ := Basis.exists_error_of_unreadable hfault
      exact lookup_of_mem_approach
        ((run_of_basis_error (hbasis.trans hfailure)).1.subset hquery)
    · intro hchain
      exact (run_of_basis_error (hbasis.trans (Basis.of_unreadable hfault hchain))).2
  lastFault k query fault hquery hanswer hfault := by
    rw [← Nat.zero_add k] at hanswer
    exact request.forecast_orderly.run_fault hquery hanswer hfault

end Request

/-- For two products whose users count, the lookups end with users twice each. -/
example : ((oneServer.request 2.0 1.0).forecast.run (.still oneServer) 0).1.map Query.lookup
    = [.equipmentTypes, .metrics .nup, .hierarchy, .products, .computedLicenses, .pooledLicenses,
      .users, .users, .users, .users] := by
  decide +kernel

end LicenseForecast
