import LicenseForecast.Forecast
import LicenseForecast.Proofs.Inquiry.Result
import LicenseForecast.Proofs.Metric.Rule

namespace LicenseForecast

/-!
# What a forecast is computed from

A forecast first finds out what it is about, and only then asks for products, totals and users.
`Basis` is what stands between the two:

* `forecast_eq` — a forecast is its basis and then the rows on it;
* `forecast_result` — its result, from the answers of an inventory: the basis, the products, the
  totals (`Basis.splice`) and then one product after another (`Basis.row?`).
-/

/-- What a forecast is computed from once the request has been understood. -/
inductive Basis where
  | direct (rule : DirectRule) (oldLicenses newLicenses : Nat)
  | pooled (rule : PooledRule) (chain : Chain) (old new : Readings)
      (oldContribution newContribution : Float)

namespace Request

/-- What a request finds out before it asks for products. -/
def basis (request : Request) : Inquiry Basis := do
  let family ← Inquiry.ofExcept (Family.ofRequest request.familyText)
  let (old, new) ← Inquiry.ofExcept
    ((Readings.beforeAndAfter request.overrides).mapError .invalidAttribute)
  Inquiry.look
  let types ← Inquiry.demand .equipmentTypes
  let forest ← Inquiry.ofExcept ((Forest.ofTypes types).mapError .invalidForest)
  discard <| Inquiry.ofExcept (checkType forest request.typeName)
  let metric ← Inquiry.metric family request.metricName
  let rule ← Inquiry.ofExcept (metric.resolve forest)
  Inquiry.ofExcept (checkBase rule request.typeName)
  match rule with
  | .direct rule =>
    let oldLicenses ← Inquiry.ofExcept (Formula.directLicenses rule old)
    let newLicenses ← Inquiry.ofExcept (Formula.directLicenses rule new)
    return .direct rule oldLicenses newLicenses
  | .pooled rule =>
    let chain ← Chain.above forest rule request.equipmentId request.typeName
    let oldContribution ← Inquiry.ofExcept (Formula.contribution rule old)
    let newContribution ← Inquiry.ofExcept (Formula.contribution rule new)
    return .pooled rule chain old new oldContribution newContribution

/-- Asks for the products that a request affects. -/
def affected (request : Request) : Basis → Inquiry (Option (List Product))
  | .direct rule _ _ => products request.equipmentId request.typeName 1 (.direct rule)
  | .pooled rule chain .. =>
    products chain.top.id chain.top.typeName chain.productDepth (.pooled rule)

/-- Asks for what the rows of some products need. -/
def rowsFor (products : List Product) : Basis → Inquiry Forecast
  | .direct rule oldLicenses newLicenses =>
    return ⟨products.map fun product => .of rule.name product oldLicenses newLicenses⟩
  | .pooled rule chain old new oldContribution newContribution => do
    let top := chain.top
    Inquiry.look
    let oldTotal ← Inquiry.demand (.computedLicenses top.id top.typeName rule)
    Inquiry.look
    let aggregate := chain.aggregate
    let pool ← Inquiry.demand (.pooledLicenses aggregate.id aggregate.typeName rule)
    let splice := Formula.splice oldTotal pool oldContribution newContribution
    match threshold? rule with
    | none =>
      return ⟨products.map fun product => .of rule.name product splice.oldTotal splice.newTotal⟩
    | some usersPerProcessor =>
      return ⟨← userRows rule usersPerProcessor splice chain old new products⟩

/-- The rows on a basis. -/
def rowsOn (request : Request) (basis : Basis) : Inquiry Forecast := do
  match ← request.affected basis with
  | none => return ⟨[]⟩
  | some products => rowsFor products basis

/-- **A forecast is its basis and then the rows on it.** -/
theorem forecast_eq (request : Request) :
    request.forecast = request.basis >>= request.rowsOn := by
  unfold forecast basis
  simp only [bind_assoc]
  -- the two agree question by question up to the rule
  congr 1; funext family
  congr 1; funext sides
  congr 1; funext _
  congr 1; funext types
  congr 1; funext forest
  congr 1; funext _
  congr 1; funext metric
  congr 1; funext rule
  congr 1; funext _
  cases rule with
  | direct rule =>
    simp only [direct, bind_assoc, pure_bind]
    rfl
  | pooled rule =>
    simp only [pooled, bind_assoc, pure_bind]
    rfl

end Request

namespace Basis

/-- The family whose formula counts. -/
def family : Basis → Family
  | .direct rule _ _ => rule.family
  | .pooled rule .. => rule.family

/-- The answer about the products that a request affects. -/
def installed (inventory : Inventory) (request : Request) :
    Basis → Except LookupFault (List Product)
  | .direct rule _ _ =>
    inventory (.products request.equipmentId request.typeName 1 (.direct rule))
  | .pooled rule chain .. =>
    inventory (.products chain.top.id chain.top.typeName chain.productDepth (.pooled rule))

/-- The totals before and after.  A machine that counts on its own is its own pool. -/
def splice (inventory : Inventory) : Basis → Except Failure Formula.Splice
  | .direct _ oldLicenses newLicenses =>
    .ok ⟨oldLicenses, newLicenses, oldLicenses, newLicenses⟩
  | .pooled rule chain _ _ oldContribution newContribution => do
    let total ← Failure.demanded .computedLicenses
      (inventory (.computedLicenses chain.top.id chain.top.typeName rule))
    let pool ← Failure.demanded .pooledLicenses
      (inventory (.pooledLicenses chain.aggregate.id chain.aggregate.typeName rule))
    return Formula.splice total pool oldContribution newContribution

/-- The answer about the users of a product before the change, where users count. -/
def usersBefore (inventory : Inventory) (product : Product) :
    Basis → Except LookupFault (List NamedUser)
  | .direct .. => .error .noData
  | .pooled rule chain old .. =>
    inventory (.users chain.top.id chain.top.typeName product.tag chain.productDepth rule old)

/-- The answer about the users of a product after the change, where users count. -/
def usersAfter (inventory : Inventory) (product : Product) :
    Basis → Except LookupFault (List NamedUser)
  | .direct .. => .error .noData
  | .pooled rule chain _ new _ _ =>
    inventory (.users chain.top.id chain.top.typeName product.tag chain.productDepth rule new)

/-- The row of a product, if it has one. -/
def row? (inventory : Inventory) (totals : Formula.Splice) (basis : Basis) (product : Product) :
    Except Failure (Option Row) :=
  match basis with
  | .direct rule _ _ => .ok (some (.of rule.name product totals.oldTotal totals.newTotal))
  | .pooled rule .. =>
    match Request.threshold? rule with
    | none => .ok (some (.of rule.name product totals.oldTotal totals.newTotal))
    | some usersPerProcessor => do
      let old ← Failure.sought .users (basis.usersBefore inventory product)
      let new ← Failure.sought .users (basis.usersAfter inventory product)
      return Request.userRow rule usersPerProcessor totals product old new

/-- The rows of some products. -/
def rows (inventory : Inventory) (basis : Basis) (products : List Product) :
    Except Failure (List Row) := do
  let totals ← basis.splice inventory
  List.reduceOption <$> products.mapM (basis.row? inventory totals)

end Basis

namespace Request

variable (inventory : Inventory)

/-- Products are found or there are none. -/
private theorem result_products (id typeName : String) (depth : Nat) (rule : LicenseRule) :
    (products id typeName depth rule).result inventory none
      = Failure.sought .products (inventory (.products id typeName depth rule)) := by
  rw [products, Inquiry.result_bind, Inquiry.result_look]
  exact Inquiry.result_seek inventory _

/-- So are the users of a product. -/
private theorem result_users (chain : Chain) (product : Product) (rule : PooledRule)
    (readings : Readings) :
    (users chain product rule readings).result inventory none
      = Failure.sought .users (inventory (.users chain.top.id chain.top.typeName product.tag
          chain.productDepth rule readings)) := by
  rw [users, Inquiry.result_bind, Inquiry.result_look]
  exact Inquiry.result_seek inventory _

/-- The rows of the products of a rule for which users count, one product after another. -/
private theorem result_userRows {rule : PooledRule} {usersPerProcessor : Nat}
    (hthreshold : threshold? rule = some usersPerProcessor) (totals : Formula.Splice)
    (chain : Chain) (old new : Readings) (oldC newC : Float) (products : List Product) :
    (userRows rule usersPerProcessor totals chain old new products).result inventory none
      = List.reduceOption <$> products.mapM
          ((Basis.pooled rule chain old new oldC newC).row? inventory totals) := by
  induction products with
  | nil => rfl
  | cons product rest ih =>
    -- both counts are asked for before the row is made, in this order
    have hrow : (Basis.pooled rule chain old new oldC newC).row? inventory totals product
        = (do
            let before ← Failure.sought .users (inventory (.users chain.top.id
              chain.top.typeName product.tag chain.productDepth rule old))
            let after ← Failure.sought .users (inventory (.users chain.top.id
              chain.top.typeName product.tag chain.productDepth rule new))
            return userRow rule usersPerProcessor totals product before after) := by
      simp only [Basis.row?, hthreshold]
      rfl
    simp only [userRows, Inquiry.result_bind, result_users, ih, List.mapM_cons, hrow,
      map_eq_pure_bind, bind_assoc, pure_bind]
    -- question by question the two sides are the same
    congr 1; funext before
    congr 1; funext after
    congr 1; funext rows
    cases userRow rule usersPerProcessor totals product before after <;> rfl

/-- A product that is never left out has its row at its place. -/
private theorem mapM_some (row : Product → Row) (products : List Product) :
    List.reduceOption <$> products.mapM (fun product => (.ok (some (row product)) :
      Except Failure (Option Row))) = .ok (products.map row) := by
  have hsome := mapM_of_forall (f := fun product => (.ok (some (row product)) :
    Except Failure (Option Row))) (g := some ∘ row) (l := products) fun _ _ => rfl
  rw [hsome]
  show Except.ok ((products.map (some ∘ row)).filterMap id) = _
  rw [List.filterMap_map]
  exact congrArg Except.ok (congrFun List.filterMap_eq_map products)

/-- So are the products that a request affects. -/
private theorem result_affected (request : Request) (basis : Basis) :
    (request.affected basis).result inventory none
      = Failure.sought .products (basis.installed inventory request) := by
  cases basis <;> exact result_products inventory _ _ _ _

/-- The result of the rows of some products. -/
private theorem result_rowsFor (products : List Product) (basis : Basis) :
    (rowsFor products basis).result inventory none
      = Forecast.mk <$> basis.rows inventory products := by
  cases basis with
  | direct rule oldLicenses newLicenses =>
    show Except.ok _ = Forecast.mk <$> (List.reduceOption <$> products.mapM fun product =>
      (.ok (some (.of rule.name product oldLicenses newLicenses)) : Except Failure (Option Row)))
    rw [mapM_some]
    rfl
  | pooled rule chain old new oldC newC =>
    have htotal := Inquiry.result_demand inventory
      (.computedLicenses chain.top.id chain.top.typeName rule)
    have hpool := Inquiry.result_demand inventory
      (.pooledLicenses chain.aggregate.id chain.aggregate.typeName rule)
    simp only [rowsFor, Inquiry.result_bind, Inquiry.result_look, Basis.rows, Basis.splice,
      map_bind, bind_assoc, pure_bind]
    show (Inquiry.result inventory none (Inquiry.demand (.computedLicenses ..)) >>= _) = _
    rw [htotal]
    congr 1; funext total
    show (Inquiry.result inventory none (Inquiry.demand (.pooledLicenses ..)) >>= _) = _
    rw [hpool]
    congr 1; funext pool
    -- only here does it matter whether users count
    generalize Formula.splice total pool oldC newC = totals
    cases hthreshold : threshold? rule with
    | none =>
      have hrow : (Basis.pooled rule chain old new oldC newC).row? inventory totals
          = fun product => .ok (some (.of rule.name product totals.oldTotal totals.newTotal)) := by
        funext product
        simp only [Basis.row?, hthreshold]
      show Except.ok _ = Forecast.mk <$> (List.reduceOption <$> products.mapM _)
      rw [hrow, mapM_some]
      rfl
    | some usersPerProcessor =>
      show (userRows rule usersPerProcessor totals chain old new products >>= fun rows =>
        pure ⟨rows⟩).result inventory none = Forecast.mk <$> (List.reduceOption <$> products.mapM _)
      rw [← result_userRows inventory hthreshold]
      exact Inquiry.result_map inventory Forecast.mk _

/-- **The result of a forecast**, from the answers of an inventory. -/
theorem forecast_result (request : Request) :
    request.forecast.result inventory none = (do
      let basis ← request.basis.result inventory none
      match ← Failure.sought .products (basis.installed inventory request) with
      | none => return ⟨[]⟩
      | some products => Forecast.mk <$> basis.rows inventory products) := by
  rw [forecast_eq, Inquiry.result_bind]
  congr 1; funext basis
  rw [rowsOn, Inquiry.result_bind, result_affected]
  congr 1; funext found
  cases found with
  | none => rfl
  | some products => exact result_rowsFor inventory products basis

/-- **What the success of a forecast comes from**: a basis and the products that it affects, and a
    row or a gap for each of them. -/
theorem forecast_eq_ok {inventory : Inventory} {request : Request} {forecast : Forecast} :
    request.forecast.result inventory none = .ok forecast ↔
      ∃ basis, request.basis.result inventory none = .ok basis ∧
        (basis.installed inventory request = .error .noData ∧ forecast.rows = [] ∨
          ∃ products, basis.installed inventory request = .ok products ∧
            basis.rows inventory products = .ok forecast.rows) := by
  rw [forecast_result]
  simp only [bind_eq_ok]
  refine exists_congr fun basis => and_congr_right fun _ => ?_
  constructor
  · rintro ⟨found, hfound, h⟩
    cases found with
    | none =>
      cases h
      exact .inl ⟨Failure.sought_eq_none.mp hfound, rfl⟩
    | some products =>
      obtain ⟨rows, hrows, rfl⟩ := map_eq_ok.mp h
      exact .inr ⟨products, Failure.sought_eq_some.mp hfound, hrows⟩
  · rintro (⟨hfound, hrows⟩ | ⟨products, hfound, hrows⟩)
    · refine ⟨none, Failure.sought_eq_none.mpr hfound, ?_⟩
      obtain ⟨rows⟩ := forecast
      cases hrows
      rfl
    · exact ⟨some products, Failure.sought_eq_some.mpr hfound, map_eq_ok.mpr ⟨_, hrows, rfl⟩⟩

/-! ### What the basis depends on -/

/-- The forest and the rule that a request is about.  The overrides do not matter. -/
def resolved (inventory : Inventory) (request : Request) (family : Family) :
    Except Failure (Forest × LicenseRule) := do
  let types ← Failure.demanded .equipmentTypes (inventory .equipmentTypes)
  let forest ← (Forest.ofTypes types).mapError .invalidForest
  discard <| checkType forest request.typeName
  let specs ← Failure.demanded (.metrics family) (inventory (.metrics family))
  let metric ← Metric.only family request.metricName (specs.map (Metric.ofSpec family))
  let rule ← metric.resolve forest
  checkBase rule request.typeName
  return (forest, rule)

/-- Finds out which forest and rule a request is about. -/
def ruling (request : Request) (family : Family) : Inquiry (Forest × LicenseRule) := do
  Inquiry.look
  let types ← Inquiry.demand .equipmentTypes
  let forest ← Inquiry.ofExcept ((Forest.ofTypes types).mapError .invalidForest)
  discard <| Inquiry.ofExcept (checkType forest request.typeName)
  let metric ← Inquiry.metric family request.metricName
  let rule ← Inquiry.ofExcept (metric.resolve forest)
  Inquiry.ofExcept (checkBase rule request.typeName)
  return (forest, rule)

/-- Finds out what a forecast is computed from under a rule. -/
def basisUnder (request : Request) (old new : Readings) (found : Forest × LicenseRule) :
    Inquiry Basis :=
  match found.2 with
  | .direct rule => do
    let oldLicenses ← Inquiry.ofExcept (Formula.directLicenses rule old)
    let newLicenses ← Inquiry.ofExcept (Formula.directLicenses rule new)
    return .direct rule oldLicenses newLicenses
  | .pooled rule => do
    let chain ← Chain.above found.1 rule request.equipmentId request.typeName
    let oldContribution ← Inquiry.ofExcept (Formula.contribution rule old)
    let newContribution ← Inquiry.ofExcept (Formula.contribution rule new)
    return .pooled rule chain old new oldContribution newContribution

/-- **A basis is found in two steps**: first the rule, then what the overrides mean under it. -/
theorem basis_eq_ruling (request : Request) : request.basis = (do
    let family ← Inquiry.ofExcept (Family.ofRequest request.familyText)
    let sides ← Inquiry.ofExcept
      ((Readings.beforeAndAfter request.overrides).mapError .invalidAttribute)
    request.ruling family >>= request.basisUnder sides.1 sides.2) := by
  unfold basis ruling
  simp only [bind_assoc, pure_bind]
  rfl

end Request

/-- The basis that readings before and after yield under a rule. -/
def Basis.of (inventory : Inventory) (request : Request) (forest : Forest) (old new : Readings) :
    LicenseRule → Except Failure Basis
  | .direct rule => do
    let oldLicenses ← Formula.directLicenses rule old
    let newLicenses ← Formula.directLicenses rule new
    return .direct rule oldLicenses newLicenses
  | .pooled rule => do
    let chain ← Chain.ofAnswer forest rule request.equipmentId request.typeName
      (inventory (.hierarchy request.equipmentId request.typeName rule.depth))
    let oldContribution ← Formula.contribution rule old
    let newContribution ← Formula.contribution rule new
    return .pooled rule chain old new oldContribution newContribution

namespace Request

/-- What the search for a rule comes to. -/
theorem ruling_result (inventory : Inventory) (request : Request) (family : Family) :
    (request.ruling family).result inventory none = request.resolved inventory family := by
  -- each question is asked in the request and answered on the right
  have htypes := Inquiry.result_demand inventory .equipmentTypes
  have hmetric := Inquiry.result_metric inventory family request.metricName
  unfold ruling resolved
  rw [Inquiry.result_bind, Inquiry.result_look]
  show Inquiry.result inventory none (Inquiry.demand .equipmentTypes >>= _) = _
  rw [Inquiry.result_bind, htypes]
  congr 1; funext types
  rw [Inquiry.result_bind, Inquiry.result_ofExcept]
  congr 1; funext forest
  have hcheck : (discard (Inquiry.ofExcept (checkType forest request.typeName))).result
      inventory none = discard (checkType forest request.typeName) :=
    Inquiry.result_map inventory _ _
  rw [Inquiry.result_bind, hcheck]
  congr 1; funext _
  rw [Inquiry.result_bind, hmetric]
  simp only [bind_assoc]
  congr 1; funext specs
  congr 1; funext metric
  rw [Inquiry.result_bind, Inquiry.result_ofExcept]
  congr 1; funext rule
  rw [Inquiry.result_bind, Inquiry.result_ofExcept]
  rfl

/-- What the overrides come to under a rule. -/
theorem basisUnder_result (inventory : Inventory) (request : Request) (old new : Readings)
    (found : Forest × LicenseRule) :
    (request.basisUnder old new found).result inventory none
      = Basis.of inventory request found.1 old new found.2 := by
  obtain ⟨forest, rule | rule⟩ := found
  · simp only [basisUnder, Inquiry.result_bind, Inquiry.result_ofExcept, Basis.of, Chain.above,
      Inquiry.result_look]
    rfl
  · simp only [basisUnder, Inquiry.result_bind, Inquiry.result_ofExcept, Basis.of]
    rfl

/-- **The result of a basis**, from the answers of an inventory. -/
theorem basis_result (inventory : Inventory) (request : Request) :
    request.basis.result inventory none = (do
      let family ← Family.ofRequest request.familyText
      let sides ← (Readings.beforeAndAfter request.overrides).mapError .invalidAttribute
      let found ← request.resolved inventory family
      Basis.of inventory request found.1 sides.1 sides.2 found.2) := by
  rw [basis_eq_ruling]
  simp only [Inquiry.result_bind, Inquiry.result_ofExcept, ruling_result, basisUnder_result]

/-- Once the rule is found, the basis is that of the rule. -/
theorem basis_of_resolved {inventory : Inventory} {request : Request} {family : Family}
    {old new : Readings} {forest : Forest} {rule : LicenseRule}
    (hfamily : Family.ofRequest request.familyText = .ok family)
    (hsides : Readings.beforeAndAfter request.overrides = .ok (old, new))
    (hresolved : request.resolved inventory family = .ok (forest, rule)) :
    request.basis.result inventory none = Basis.of inventory request forest old new rule := by
  rw [basis_result, hfamily, hsides]
  show (request.resolved inventory family >>= fun found =>
    Basis.of inventory request found.1 old new found.2) = _
  rw [hresolved]
  rfl

/-- **What the success of a basis comes from.** -/
theorem basis_eq_ok {inventory : Inventory} {request : Request} {basis : Basis} :
    request.basis.result inventory none = .ok basis ↔
      ∃ family old new forest rule, Family.ofRequest request.familyText = .ok family ∧
        Readings.beforeAndAfter request.overrides = .ok (old, new) ∧
        request.resolved inventory family = .ok (forest, rule) ∧
        Basis.of inventory request forest old new rule = .ok basis := by
  rw [basis_result]
  simp only [bind_eq_ok, mapError_eq_ok]
  constructor
  · rintro ⟨family, hfamily, ⟨old, new⟩, hsides, ⟨forest, rule⟩, hrule, h⟩
    exact ⟨family, old, new, forest, rule, hfamily, hsides, hrule, h⟩
  · rintro ⟨family, old, new, forest, rule, hfamily, hsides, hrule, h⟩
    exact ⟨family, hfamily, (old, new), hsides, (forest, rule), hrule, h⟩

/-- **What a resolved rule comes from**: a metric of the inventory, bound against its types. -/
theorem resolved_eq_ok {inventory : Inventory} {request : Request} {family : Family}
    {forest : Forest} {rule : LicenseRule}
    (h : request.resolved inventory family = .ok (forest, rule)) :
    ∃ types specs metric, inventory .equipmentTypes = .ok types ∧
      Forest.ofTypes types = .ok forest ∧
      inventory (.metrics family) = .ok specs ∧
      Metric.only family request.metricName (specs.map (Metric.ofSpec family)) = .ok metric ∧
      metric.rule forest = .ok rule ∧ rule.base.name = request.typeName := by
  unfold resolved at h
  simp only [bind_eq_ok, Failure.demanded_eq_ok, mapError_eq_ok] at h
  obtain ⟨types, htypes, f, hf, _, -, specs, hspecs, metric, hmetric, r, hr, _, hbase, h⟩ := h
  cases h
  refine ⟨types, specs, metric, htypes, hf, hspecs, hmetric, mapError_eq_ok.mp hr, ?_⟩
  by_contra hne
  unfold checkBase at hbase
  rw [if_neg hne] at hbase
  cases hbase

end Request

namespace Basis

variable {inventory : Inventory} {request : Request} {forest : Forest} {old new : Readings}
  {basis : Basis}

/-- **A rule that counts one machine alone** needs its licences on both sides. -/
theorem of_direct_eq_ok {rule : DirectRule} :
    Basis.of inventory request forest old new (.direct rule) = .ok basis ↔
      ∃ oldLicenses newLicenses, Formula.directLicenses rule old = .ok oldLicenses ∧
        Formula.directLicenses rule new = .ok newLicenses ∧
        basis = .direct rule oldLicenses newLicenses := by
  simp only [Basis.of, bind_eq_ok, pure_eq_ok]
  constructor
  · rintro ⟨o, ho, n, hn, rfl⟩
    exact ⟨o, n, ho, hn, rfl⟩
  · rintro ⟨o, n, ho, hn, rfl⟩
    exact ⟨o, ho, n, hn, rfl⟩

/-- **A rule that counts pools** needs the chain and the contributions on both sides. -/
theorem of_pooled_eq_ok {rule : PooledRule} :
    Basis.of inventory request forest old new (.pooled rule) = .ok basis ↔
      ∃ chain oldContribution newContribution,
        Chain.ofAnswer forest rule request.equipmentId request.typeName
          (inventory (.hierarchy request.equipmentId request.typeName rule.depth)) = .ok chain ∧
        Formula.contribution rule old = .ok oldContribution ∧
        Formula.contribution rule new = .ok newContribution ∧
        basis = .pooled rule chain old new oldContribution newContribution := by
  simp only [Basis.of, bind_eq_ok, pure_eq_ok]
  constructor
  · rintro ⟨chain, hchain, o, ho, n, hn, rfl⟩
    exact ⟨chain, o, n, hchain, ho, hn, rfl⟩
  · rintro ⟨chain, o, n, hchain, ho, hn, rfl⟩
    exact ⟨chain, hchain, o, ho, n, hn, rfl⟩

end Basis

end LicenseForecast
