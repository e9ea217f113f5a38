import LicenseForecast.Failure
import LicenseForecast.Proofs.Equipment.Ancestry
import LicenseForecast.Proofs.Metric.Rule

namespace LicenseForecast

/-!
# Which pooled metrics yield a rule

`PooledMetric.rule` compares distances from the base type, and never asks whether the end type lies
above the aggregation type.  What a pooled metric has to be like is said here without distances
(`PooledMetric.WellFormed`): its four types follow each other on a way up.

* `PooledMetric.wellFormed_of_rule` — a metric that yields a rule is of this kind: of two types
  above the base type the nearer one lies below the other (`Forest.distance_sub`);
* `PooledMetric.exists_rule` — a metric of this kind yields a rule, since the end type can be
  reached from the start type through the base type;
* `Metric.resolve_pooled` — exactly these metrics are accepted, and what their rules count.
-/

namespace Forest

/-- A type lies above another one, or is that type. -/
def AtOrAbove (f : Forest) (upper lower : Nat) : Prop := ∃ n, f.ascend n lower = some upper

/-- One place lies at or above another if there is a distance. -/
theorem atOrAbove_iff {types : List EquipmentType} {f : Forest} (h : ofTypes types = .ok f)
    {upper lower : Nat} (hlower : lower < types.length) :
    f.AtOrAbove upper lower ↔ ∃ n, f.distance lower upper = some n :=
  exists_congr fun _ => (distance_eq_some_iff h hlower).symm

end Forest

/-- A type has an attribute with an id, and the first of them holds numbers. -/
def EquipmentType.HasNumeric (t : EquipmentType) (id : String) : Prop :=
  ∃ a, t.attributes.find? (·.id == id) = some a ∧ a.kind ≠ .text

/-- What a pooled metric has to be like to yield a rule: its types exist, at the given indices, and
    follow each other on a way up that is not too long, and its attributes belong to its base type
    and hold numbers. -/
structure PooledMetric.WellFormed (types : List EquipmentType) (f : Forest) (m : PooledMetric)
    (start base aggregate top : Nat) : Prop where
  start_id : ∃ t, types[start]? = some t ∧ t.id = m.startTypeId
  base_id : ∃ t, types[base]? = some t ∧ t.id = m.baseTypeId
  aggregate_id : ∃ t, types[aggregate]? = some t ∧ t.id = m.aggregateTypeId
  top_id : ∃ t, types[top]? = some t ∧ t.id = m.endTypeId
  base_above : f.AtOrAbove base start
  aggregate_above : f.AtOrAbove aggregate base
  top_above : f.AtOrAbove top aggregate
  distance_le : ∀ n, f.distance start top = some n → n ≤ 255
  numeric : ∀ id ∈ [m.coresId, m.cpusId, m.coreFactorId], ∃ t, types[base]? = some t ∧
    t.HasNumeric id

/-- What a pooled rule counts: the steps between the types of its metric. -/
structure PooledRule.Measures (f : Forest) (start base aggregate top : Nat) (rule : PooledRule) :
    Prop where
  aggregateOffset : f.distance base aggregate = some rule.aggregateOffset
  topOffset : f.distance base top = some rule.topOffset
  aggregate_le_top : rule.aggregateOffset ≤ rule.topOffset
  above_aggregate : f.distance aggregate top = some (rule.topOffset - rule.aggregateOffset)
  depth : ∃ n, f.distance start base = some n ∧ rule.depth = n + rule.topOffset

/-- A type has an attribute that counts exactly if the attribute can be found. -/
theorem EquipmentType.exists_numeric_iff {t : EquipmentType} {id : String} :
    (∃ a, t.numeric id = .ok a) ↔ t.HasNumeric id := by
  unfold EquipmentType.numeric EquipmentType.HasNumeric
  change _ ↔ ∃ a, t.attribute? id = some a ∧ a.kind ≠ .text
  cases t.attribute? id with
  | none => simp
  | some a => by_cases hkind : a.kind = .text <;> simp [hkind]

section

variable {types : List EquipmentType} {f : Forest} (h : Forest.ofTypes types = .ok f)
  {family : Family} {usersPerProcessor : Option Nat} {m : PooledMetric}

include h

/-- **A metric that yields a rule is well formed**, and its rule counts the steps between its
    types. -/
theorem PooledMetric.wellFormed_of_rule {rule : PooledRule}
    (hrule : m.rule f family usersPerProcessor = .ok rule) :
    ∃ start base aggregate top, m.WellFormed types f start base aggregate top ∧
      rule.Measures f start base aggregate top := by
  have hrep := Forest.represents_of_ofTypes h
  obtain ⟨start, base, aggregate, top, aggregateOffset, topOffset, depth, cores, cpus, coreFactor,
    ⟨hstart, hbase, haggregate, htop⟩, ⟨hbelow, hagg, hoff, hle⟩, ⟨hdepth, hdeep⟩,
    ⟨hcores, hcpus, hfactor⟩, rfl⟩ := PooledMetric.rule_eq_ok.mp hrule
  rw [hrep.indexOfId?] at hstart hbase haggregate htop
  obtain ⟨ts, hts, hsid⟩ := hstart
  obtain ⟨tb, htb, hbid⟩ := hbase
  have hslt : start < types.length := (List.getElem?_eq_some_iff.mp hts).1
  have hblt : base < types.length := (List.getElem?_eq_some_iff.mp htb).1
  -- the steps from the start add up: to the base, to the pool, to the end
  obtain ⟨n, hn⟩ := Option.isSome_iff_exists.mp hbelow
  have habove := Forest.distance_sub h hblt hagg hoff hle
  have hsum := Forest.distance_add h hslt hn hoff
  have hnumeric : ∀ id a, ((f.get? base).getD default).numeric id = .ok a →
      ∃ t, types[base]? = some t ∧ t.HasNumeric id := by
    intro id a ha
    rw [hrep.get?, htb] at ha
    exact ⟨tb, htb, EquipmentType.exists_numeric_iff.mp ⟨a, ha⟩⟩
  refine ⟨start, base, aggregate, top,
    { start_id := ⟨ts, hts, hsid⟩, base_id := ⟨tb, htb, hbid⟩
      aggregate_id := haggregate, top_id := htop
      base_above := ⟨n, Forest.ascend_of_distance hn⟩
      aggregate_above := ⟨_, Forest.ascend_of_distance hagg⟩
      top_above := ⟨_, Forest.ascend_of_distance habove⟩
      distance_le := ?_, numeric := ?_ },
    { aggregateOffset := hagg, topOffset := hoff, aggregate_le_top := hle
      above_aggregate := habove, depth := ⟨n, hn, ?_⟩ }⟩
  · intro k hk
    cases hdepth.symm.trans hk
    exact hdeep
  · simp only [List.mem_cons, List.not_mem_nil, or_false]
    rintro id (rfl | rfl | rfl)
    · exact hnumeric _ _ hcores
    · exact hnumeric _ _ hcpus
    · exact hnumeric _ _ hfactor
  · exact Option.some.inj (hdepth.symm.trans hsum)

/-- **A metric that is well formed yields a rule.** -/
theorem PooledMetric.exists_rule {start base aggregate top : Nat}
    (hm : m.WellFormed types f start base aggregate top) :
    ∃ rule, m.rule f family usersPerProcessor = .ok rule := by
  have hrep := Forest.represents_of_ofTypes h
  obtain ⟨ts, hts, hsid⟩ := hm.start_id
  obtain ⟨tb, htb, hbid⟩ := hm.base_id
  obtain ⟨ta, hta, haid⟩ := hm.aggregate_id
  have hslt : start < types.length := (List.getElem?_eq_some_iff.mp hts).1
  have hblt : base < types.length := (List.getElem?_eq_some_iff.mp htb).1
  have halt : aggregate < types.length := (List.getElem?_eq_some_iff.mp hta).1
  obtain ⟨n, hn⟩ := (Forest.atOrAbove_iff h hslt).mp hm.base_above
  obtain ⟨k, hk⟩ := (Forest.atOrAbove_iff h hblt).mp hm.aggregate_above
  obtain ⟨l, hl⟩ := (Forest.atOrAbove_iff h halt).mp hm.top_above
  -- the way from the start type to the end type goes through the others
  have htop := Forest.distance_add h hblt hk hl
  have hdepth := Forest.distance_add h hslt hn htop
  have hnumeric : ∀ id ∈ [m.coresId, m.cpusId, m.coreFactorId],
      ∃ a, ((f.get? base).getD default).numeric id = .ok a := by
    intro id hid
    obtain ⟨t, ht, hnum⟩ := hm.numeric id hid
    rw [hrep.get?, ht]
    exact EquipmentType.exists_numeric_iff.mpr hnum
  obtain ⟨cores, hcores⟩ := hnumeric m.coresId (by simp)
  obtain ⟨cpus, hcpus⟩ := hnumeric m.cpusId (by simp)
  obtain ⟨coreFactor, hfactor⟩ := hnumeric m.coreFactorId (by simp)
  exact ⟨_, PooledMetric.rule_eq_ok.mpr ⟨start, base, aggregate, top, k, k + l, n + (k + l), cores,
    cpus, coreFactor,
    ⟨(hrep.indexOfId? _ _).mpr hm.start_id, (hrep.indexOfId? _ _).mpr hm.base_id,
      (hrep.indexOfId? _ _).mpr hm.aggregate_id, (hrep.indexOfId? _ _).mpr hm.top_id⟩,
    ⟨by rw [hn]; rfl, hk, htop, Nat.le_add_right k l⟩, ⟨hdepth, hm.distance_le _ hdepth⟩,
    ⟨hcores, hcpus, hfactor⟩, rfl⟩⟩

end

/-- The rule of a metric that counts over a pool is that of its pooled content. -/
private theorem Metric.resolve_of_pooled {f : Forest} {metric : Metric} {m : PooledMetric}
    (h : metric.pooled? = some m) : ∃ usersPerProcessor, metric.resolve f =
      (LicenseRule.pooled <$> m.rule f metric.family usersPerProcessor).mapError
        (.invalidMetric metric.name) := by
  cases metric with
  | ops m => cases h; exact ⟨none, rfl⟩
  | nup m => cases h; exact ⟨some m.usersPerProcessor, rfl⟩
  | ips m => cases h
  | sps m => cases h

/-- **Exactly the well-formed pooled metrics are accepted**, whatever forest they are resolved
    against.  Those that are not are refused as invalid, and the rule of one that is counts the
    steps between its types. -/
theorem Metric.resolve_pooled {types : List EquipmentType} {f : Forest}
    (h : Forest.ofTypes types = .ok f) {metric : Metric} {m : PooledMetric}
    (hpooled : metric.pooled? = some m) :
    ((∃ rule, metric.resolve f = .ok rule) ↔
      ∃ start base aggregate top, m.WellFormed types f start base aggregate top) ∧
    (∀ failure, metric.resolve f = .error failure →
      ∃ defect, failure = .invalidMetric metric.name defect) ∧
    ∀ rule, metric.resolve f = .ok rule → ∃ r start base aggregate top, rule = .pooled r ∧
      m.WellFormed types f start base aggregate top ∧ r.Measures f start base aggregate top := by
  obtain ⟨usersPerProcessor, hresolve⟩ := Metric.resolve_of_pooled (f := f) hpooled
  have hrule : ∀ rule, metric.resolve f = .ok rule ↔
      ∃ r, m.rule f metric.family usersPerProcessor = .ok r ∧ .pooled r = rule := by
    intro rule
    rw [hresolve, mapError_eq_ok, map_eq_ok]
  have hmeasured : ∀ rule, metric.resolve f = .ok rule → ∃ r start base aggregate top,
      rule = .pooled r ∧ m.WellFormed types f start base aggregate top ∧
        r.Measures f start base aggregate top := by
    intro rule hok
    obtain ⟨r, hr, rfl⟩ := (hrule rule).mp hok
    obtain ⟨start, base, aggregate, top, hm, hmeasures⟩ := PooledMetric.wellFormed_of_rule h hr
    exact ⟨r, start, base, aggregate, top, rfl, hm, hmeasures⟩
  refine ⟨⟨?accepted, ?accepts⟩, ?refused, hmeasured⟩
  case accepted =>
    rintro ⟨rule, hok⟩
    obtain ⟨_, start, base, aggregate, top, -, hm, -⟩ := hmeasured rule hok
    exact ⟨start, base, aggregate, top, hm⟩
  case accepts =>
    rintro ⟨start, base, aggregate, top, hm⟩
    obtain ⟨r, hr⟩ := PooledMetric.exists_rule h hm
    exact ⟨.pooled r, (hrule _).mpr ⟨r, hr, rfl⟩⟩
  case refused =>
    intro failure herror
    rw [hresolve] at herror
    cases hr : m.rule f metric.family usersPerProcessor with
    | ok r =>
      rw [hr] at herror
      cases herror
    | error defect =>
      rw [hr] at herror
      cases herror
      exact ⟨defect, rfl⟩

/-! ### Two metrics on four levels -/

namespace FourLevels

/-- An attribute that counts. -/
def cores : Attribute := { id := "n", name := "cores", kind := .int }

/-- An attribute that does not. -/
def code : Attribute := { id := "k", name := "code", kind := .text, isDisplayed := true }

/-- Partitions of servers in clusters in data centres. -/
def types : List EquipmentType :=
  [{ id := "p", name := "partition", parentId := some "s" },
    { id := "s", name := "server", parentId := some "c", attributes := [code, cores] },
    { id := "c", name := "cluster", parentId := some "d" },
    { id := "d", name := "datacenter", parentId := some "" }]

def forest : Forest := ⟨types.toArray, #[some 1, some 2, some 3, none]⟩

/-- A metric that counts servers cluster by cluster. -/
def byCluster : PooledMetric := ⟨"m", "users", "n", "n", "n", "p", "s", "c", "d"⟩

/-- A metric that has its pools above its end type. -/
def upsideDown : PooledMetric := { byCluster with aggregateTypeId := "d", endTypeId := "c" }

/-- The first metric yields a rule; the second does not, so it is not well formed. -/
theorem resolve_byCluster :
    Forest.ofTypes types = .ok forest ∧
    (∃ r, (Metric.nup ⟨byCluster, 25⟩).resolve forest = .ok (.pooled r) ∧
      r.aggregateOffset = 1 ∧ r.topOffset = 2 ∧ r.Measures forest 0 1 2 3) ∧
    (Metric.ops upsideDown).resolve forest
      = .error (.invalidMetric "users" .aggregationAboveTop) ∧
    ¬ ∃ start base aggregate top, upsideDown.WellFormed types forest start base aggregate top := by
  have hforest : Forest.ofTypes types = .ok forest :=
    Forest.ofTypes_eq_ok.mpr ⟨by decide, [some 1, some 2, some 3, none],
      by decide +kernel, rfl, by decide⟩
  have hrefused : (Metric.ops upsideDown).resolve forest
      = .error (.invalidMetric "users" .aggregationAboveTop) := by
    decide +kernel
  have hnup : (Metric.nup ⟨byCluster, 25⟩).pooled? = some byCluster := rfl
  have hops : (Metric.ops upsideDown).pooled? = some upsideDown := rfl
  obtain ⟨haccepts, -, hmeasured⟩ := Metric.resolve_pooled hforest hnup
  obtain ⟨hneeds, -, -⟩ := Metric.resolve_pooled hforest hops
  have hwell : byCluster.WellFormed types forest 0 1 2 3 :=
    { start_id := ⟨_, rfl, rfl⟩, base_id := ⟨_, rfl, rfl⟩, aggregate_id := ⟨_, rfl, rfl⟩
      top_id := ⟨_, rfl, rfl⟩, base_above := ⟨1, rfl⟩, aggregate_above := ⟨1, rfl⟩
      top_above := ⟨1, rfl⟩
      distance_le := by
        intro n hn
        have hthree : forest.distance 0 3 = some 3 := by decide
        cases hn.symm.trans hthree
        decide
      numeric := by
        intro id hid
        have hcores : id = "n" := by simpa [byCluster] using hid
        subst hcores
        exact ⟨_, rfl, cores, rfl, by decide⟩ }
  obtain ⟨rule, hrule⟩ := haccepts.mpr ⟨0, 1, 2, 3, hwell⟩
  obtain ⟨r, start, base, aggregate, top, rfl, hm, hmeasures⟩ := hmeasured rule hrule
  -- an id has one index
  have hindex : ∀ {id : String} {i j : Nat}, (∃ t, types[i]? = some t ∧ t.id = id) →
      forest.indexOfId? id = some j → i = j := by
    intro id i j hi hj
    have hi := ((Forest.represents_of_ofTypes hforest).indexOfId? id i).mpr hi
    exact Option.some.inj (hi.symm.trans hj)
  cases hindex hm.start_id (j := 0) (by decide +kernel)
  cases hindex hm.base_id (j := 1) (by decide +kernel)
  cases hindex hm.aggregate_id (j := 2) (by decide +kernel)
  cases hindex hm.top_id (j := 3) (by decide +kernel)
  have hagg : forest.distance 1 2 = some 1 := by decide
  have htop : forest.distance 1 3 = some 2 := by decide
  refine ⟨hforest, ⟨r, hrule, Option.some.inj (hmeasures.aggregateOffset.symm.trans hagg),
    Option.some.inj (hmeasures.topOffset.symm.trans htop), hmeasures⟩, hrefused, ?_⟩
  intro hwell
  obtain ⟨rule, hrule⟩ := hneeds.mpr hwell
  cases hrefused.symm.trans hrule

end FourLevels

end LicenseForecast
