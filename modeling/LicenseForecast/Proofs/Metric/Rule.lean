import LicenseForecast.Metric.Rule
import LicenseForecast.Proofs.Equipment.Ascent

namespace LicenseForecast

/-!
# What a rule has been checked for

`PooledMetric.rule` and `DirectMetric.rule` refuse metrics that do not fit the forest.  Whatever
they let through satisfies `PooledMetric.Fits`, so its types are in their places
(`PooledRule.Placed`), and its family decides whether users count.
-/

namespace Forest

/-- An anchor is a type of the forest. -/
theorem anchor_eq_ok {f : Forest} {role : Anchor} {id : String} {i : Nat} :
    f.anchor role id = .ok i ↔ f.indexOfId? id = some i := by
  unfold anchor
  cases f.indexOfId? id <;> simp

/-- The steps between two types are their distance. -/
theorem steps_eq_ok {f : Forest} {defect : String → String → RuleDefect} {lower upper n : Nat} :
    f.steps defect lower upper = .ok n ↔ f.distance lower upper = some n := by
  unfold steps
  cases f.distance lower upper <;> simp

/-- The type that a metric names is the one that its rule has. -/
theorem get?_of_getD {f : Forest} {id : String} {i : Nat} {t : EquipmentType}
    (hid : f.indexOfId? id = some i) (ht : t = (f.get? i).getD default) : f.get? i = some t := by
  obtain ⟨t', ht'⟩ := get?_of_indexOfId? hid
  rw [ht', ht, ht']
  rfl

end Forest

/-- What a pooled rule has been checked for: where its types are in the forest, and how many
    steps lie between them. -/
structure PooledMetric.Fits (f : Forest) (family : Family) (usersPerProcessor : Option Nat)
    (m : PooledMetric) (rule : PooledRule) : Prop where
  family_eq : rule.family = family
  users_eq : rule.usersPerProcessor = usersPerProcessor
  name_eq : rule.name = m.name
  base_index : f.indexOfId? m.baseTypeId = some rule.baseIndex
  base_eq : rule.base = (f.get? rule.baseIndex).getD default
  exists_start : ∃ start, f.indexOfId? m.startTypeId = some start ∧
    (f.distance start rule.baseIndex).isSome
  exists_aggregate : ∃ i, f.indexOfId? m.aggregateTypeId = some i ∧
    rule.aggregate = (f.get? i).getD default ∧
    f.distance rule.baseIndex i = some rule.aggregateOffset
  exists_top : ∃ i start, f.indexOfId? m.endTypeId = some i ∧
    rule.top = (f.get? i).getD default ∧
    f.distance rule.baseIndex i = some rule.topOffset ∧
    f.indexOfId? m.startTypeId = some start ∧ f.distance start i = some rule.depth
  aggregate_le_top : rule.aggregateOffset ≤ rule.topOffset
  depth_le : rule.depth ≤ maxDepth

/-- **What a pooled metric is checked for before it yields a rule**, and what rule that is. -/
theorem PooledMetric.rule_eq_ok {f : Forest} {family : Family} {usersPerProcessor : Option Nat}
    {m : PooledMetric} {rule : PooledRule} :
    m.rule f family usersPerProcessor = .ok rule ↔
      ∃ start base aggregate top aggregateOffset topOffset depth cores cpus coreFactor,
        (f.indexOfId? m.startTypeId = some start ∧ f.indexOfId? m.baseTypeId = some base ∧
          f.indexOfId? m.aggregateTypeId = some aggregate ∧
          f.indexOfId? m.endTypeId = some top) ∧
        ((f.distance start base).isSome ∧ f.distance base aggregate = some aggregateOffset ∧
          f.distance base top = some topOffset ∧ aggregateOffset ≤ topOffset) ∧
        (f.distance start top = some depth ∧ depth ≤ maxDepth) ∧
        (((f.get? base).getD default).numeric m.coresId = .ok cores ∧
          ((f.get? base).getD default).numeric m.cpusId = .ok cpus ∧
          ((f.get? base).getD default).numeric m.coreFactorId = .ok coreFactor) ∧
        rule =
          { family, usersPerProcessor, aggregateOffset, topOffset, depth, cores, cpus, coreFactor
            name := m.name
            start := (f.get? start).getD default
            base := (f.get? base).getD default
            aggregate := (f.get? aggregate).getD default
            top := (f.get? top).getD default
            baseIndex := base } := by
  unfold PooledMetric.rule
  simp only [bind_eq_ok, Forest.anchor_eq_ok]
  constructor
  · rintro ⟨start, hstart, base, hbase, aggregate, haggregate, top, htop, h⟩
    obtain ⟨_, hbelow, aggregateOffset, hagg, topOffset, hoff, h⟩ := h
    obtain ⟨n, hbelow, -⟩ := map_eq_ok.mp hbelow
    rw [Forest.steps_eq_ok] at hbelow hagg hoff
    -- the two guards are taken by their negations, the way they read in the statement
    by_cases hle : topOffset < aggregateOffset
    · rw [if_pos hle] at h
      cases h
    rw [if_neg hle, bind_eq_ok] at h
    obtain ⟨depth, hdepth, h⟩ := h
    rw [Forest.steps_eq_ok] at hdepth
    by_cases hdeep : maxDepth < depth
    · rw [if_pos hdeep] at h
      cases h
    rw [if_neg hdeep] at h
    simp only [bind_eq_ok] at h
    obtain ⟨cores, hcores, cpus, hcpus, coreFactor, hfactor, h⟩ := h
    cases h
    exact ⟨start, base, aggregate, top, aggregateOffset, topOffset, depth, cores, cpus, coreFactor,
      ⟨hstart, hbase, haggregate, htop⟩,
      ⟨by rw [hbelow]; rfl, hagg, hoff, Nat.not_lt.mp hle⟩, ⟨hdepth, Nat.not_lt.mp hdeep⟩,
      ⟨hcores, hcpus, hfactor⟩, rfl⟩
  · rintro ⟨start, base, aggregate, top, aggregateOffset, topOffset, depth, cores, cpus, coreFactor,
      ⟨hstart, hbase, haggregate, htop⟩, ⟨hbelow, hagg, hoff, hle⟩, ⟨hdepth, hdeep⟩,
      ⟨hcores, hcpus, hfactor⟩, rfl⟩
    obtain ⟨n, hn⟩ := Option.isSome_iff_exists.mp hbelow
    refine ⟨start, hstart, base, hbase, aggregate, haggregate, top, htop, (),
      map_eq_ok.mpr ⟨n, Forest.steps_eq_ok.mpr hn, rfl⟩, aggregateOffset,
      Forest.steps_eq_ok.mpr hagg, topOffset, Forest.steps_eq_ok.mpr hoff, ?_⟩
    rw [if_neg (Nat.not_lt.mpr hle), bind_eq_ok]
    refine ⟨depth, Forest.steps_eq_ok.mpr hdepth, ?_⟩
    rw [if_neg (Nat.not_lt.mpr hdeep)]
    simp only [bind_eq_ok]
    exact ⟨cores, hcores, cpus, hcpus, coreFactor, hfactor, rfl⟩

/-- **A pooled metric that yields a rule fits the forest.** -/
theorem PooledMetric.fits_of_rule {f : Forest} {family : Family} {usersPerProcessor : Option Nat}
    {m : PooledMetric} {rule : PooledRule} (h : m.rule f family usersPerProcessor = .ok rule) :
    m.Fits f family usersPerProcessor rule := by
  obtain ⟨start, base, aggregate, top, aggregateOffset, topOffset, depth, _, _, _,
    ⟨hstart, hbase, haggregate, htop⟩, ⟨hbelow, hagg, hoff, hle⟩, ⟨hdepth, hdeep⟩, -, rfl⟩ :=
    PooledMetric.rule_eq_ok.mp h
  exact ⟨rfl, rfl, rfl, hbase, rfl, ⟨start, hstart, hbelow⟩, ⟨aggregate, haggregate, rfl, hagg⟩,
    ⟨top, start, htop, rfl, hoff, hstart, hdepth⟩, hle, hdeep⟩

/-- Where a pooled rule's types lie, by their names: the base type below the type of its pool's
    root, and that at or below the end type. -/
structure PooledRule.Placed (f : Forest) (rule : PooledRule) : Prop where
  base : f.indexOfName? rule.base.name = some rule.baseIndex
  aggregate : ∃ i, f.indexOfName? rule.aggregate.name = some i ∧
    f.ascend rule.aggregateOffset rule.baseIndex = some i
  top : ∃ i, f.indexOfName? rule.top.name = some i ∧ f.ascend rule.topOffset rule.baseIndex = some i
  aggregate_le_top : rule.aggregateOffset ≤ rule.topOffset

/-- A rule that fits a forest has its types in their places. -/
theorem PooledMetric.Fits.placed {f : Forest} (hf : f.Sound) {family : Family}
    {usersPerProcessor : Option Nat} {m : PooledMetric} {rule : PooledRule}
    (h : m.Fits f family usersPerProcessor rule) : rule.Placed f := by
  have hname : ∀ {id i t}, f.indexOfId? id = some i → t = (f.get? i).getD default →
      f.indexOfName? t.name = some i :=
    fun hid ht => hf.indexOfName?_eq (Forest.get?_of_getD hid ht)
  obtain ⟨i, haggregate, heq, hoffset⟩ := h.exists_aggregate
  obtain ⟨j, _, htop, heq', hoffset', -, -⟩ := h.exists_top
  exact ⟨hname h.base_index h.base_eq,
    ⟨i, hname haggregate heq, Forest.ascend_of_distance hoffset⟩,
    ⟨j, hname htop heq', Forest.ascend_of_distance hoffset'⟩, h.aggregate_le_top⟩

/-- **Whatever pooled rule a metric yields** fits the forest as the metric's pooled content says. -/
theorem Metric.fits_of_rule {f : Forest} {metric : Metric} {rule : PooledRule}
    (h : metric.rule f = .ok (.pooled rule)) :
    ∃ m usersPerProcessor, metric.pooled? = some m ∧
      m.Fits f metric.family usersPerProcessor rule := by
  cases metric with
  | ops m =>
    obtain ⟨r, hr, heq⟩ := map_eq_ok.mp h
    cases heq
    exact ⟨m, none, rfl, PooledMetric.fits_of_rule hr⟩
  | nup m =>
    obtain ⟨r, hr, heq⟩ := map_eq_ok.mp h
    cases heq
    exact ⟨m.pooled, some m.usersPerProcessor, rfl, PooledMetric.fits_of_rule hr⟩
  | ips m =>
    obtain ⟨r, -, heq⟩ := map_eq_ok.mp h
    cases heq
  | sps m =>
    obtain ⟨r, -, heq⟩ := map_eq_ok.mp h
    cases heq

/-- The rule of any metric that counts over a pool has its types in their places. -/
theorem Metric.placed_of_rule {f : Forest} (hf : f.Sound) {m : Metric} {rule : PooledRule}
    (h : m.rule f = .ok (.pooled rule)) : rule.Placed f := by
  obtain ⟨_, _, -, hfits⟩ := Metric.fits_of_rule h
  exact hfits.placed hf

/-- A rule that counts one machine alone is of the metric's family. -/
theorem DirectMetric.family_of_rule {f : Forest} {family : Family} {m : DirectMetric}
    {rule : DirectRule} (h : m.rule f family = .ok rule) : rule.family = family := by
  unfold DirectMetric.rule at h
  split at h
  · cases h
  · simp only [bind_eq_ok] at h
    obtain ⟨_, -, _, -, h⟩ := h
    cases h
    rfl

/-- Whether users count under a rule is decided by its family. -/
def LicenseRule.UsersByFamily : LicenseRule → Prop
  | .direct rule => rule.family ≠ .nup
  | .pooled rule => rule.family = .nup → rule.usersPerProcessor.isSome

/-- **Whether users count is decided by the family**, under the rule of any metric. -/
theorem Metric.usersByFamily_of_rule {f : Forest} {m : Metric} {rule : LicenseRule}
    (h : m.rule f = .ok rule) : rule.UsersByFamily := by
  cases m with
  | ops m =>
    obtain ⟨r, hr, rfl⟩ := map_eq_ok.mp h
    intro hfamily
    exact absurd ((PooledMetric.fits_of_rule hr).family_eq.symm.trans hfamily) (by decide)
  | nup m =>
    obtain ⟨r, hr, rfl⟩ := map_eq_ok.mp h
    intro _
    rw [(PooledMetric.fits_of_rule hr).users_eq]
    rfl
  | ips m =>
    obtain ⟨r, hr, rfl⟩ := map_eq_ok.mp h
    intro hfamily
    exact absurd ((DirectMetric.family_of_rule hr).symm.trans hfamily) (by decide)
  | sps m =>
    obtain ⟨r, hr, rfl⟩ := map_eq_ok.mp h
    intro hfamily
    exact absurd ((DirectMetric.family_of_rule hr).symm.trans hfamily) (by decide)

/-- Whether a rule counts over a pool. -/
def LicenseRule.isPooled : LicenseRule → Bool
  | .pooled _ => true
  | .direct _ => false

/-- **Whether a rule counts over a pool is decided by the family** of its metric. -/
theorem Metric.isPooled_of_rule {f : Forest} {m : Metric} {rule : LicenseRule}
    (h : m.rule f = .ok rule) : rule.isPooled = m.family.isPooled := by
  cases m <;> obtain ⟨r, -, rfl⟩ := map_eq_ok.mp h <;> rfl

end LicenseForecast
