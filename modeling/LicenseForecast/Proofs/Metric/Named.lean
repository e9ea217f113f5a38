import LicenseForecast.Proofs.Repetition
import Mathlib.Data.Set.Card

namespace LicenseForecast

/-!
# Metrics by name

A request for a metric by its name puts the metrics of all visible scopes into one list, keeps those
of the family and name, and looks at how many there are.  Two metrics of that list may be equal, so
what is counted here are the places at which the metrics are defined: the name of a scope and a
position in it (`Store.definitions`).

* `Fleet.mem_placed`, `Fleet.nodup_placed` — the list holds the metrics of exactly these places,
  and, if no scope is visible twice, each of them once;
* `Store.metric_by_name` — so a request finds a metric if and only if there is one place, and else
  says that there is none or how many there are.
-/

/-- Where a metric is defined: under the name of a scope, at a position among the metrics there. -/
structure Metric.Place where
  scope : String
  position : Nat

namespace Fleet

variable {fleet : Fleet} {names : List String} {family : Family} {name scope : String}
  {place : Metric.Place} {m m' : Metric}

/-- A fleet defines a metric at a place. -/
def DefinesAt (fleet : Fleet) (place : Metric.Place) (m : Metric) : Prop :=
  ∃ s, fleet.scopes.get? place.scope = some s ∧ s.metrics[place.position]? = some m

/-- At a place there is one metric. -/
theorem DefinesAt.unique (h : fleet.DefinesAt place m) (h' : fleet.DefinesAt place m') :
    m = m' := by
  obtain ⟨s, hs, hm⟩ := h
  obtain ⟨s', hs', hm'⟩ := h'
  rw [hs, Option.some.injEq] at hs'
  rw [← hs', hm, Option.some.injEq] at hm'
  exact hm'

/-- The metrics of a family and name in one scope, each with its place. -/
def placedIn (fleet : Fleet) (family : Family) (name scope : String) :
    List (Metric.Place × Metric) :=
  (((fleet.scopes.get? scope).elim [] (·.metrics)).zipIdx.filter
    fun entry => entry.1.family = family && entry.1.name == name).map
      fun entry => (⟨scope, entry.2⟩, entry.1)

/-- The metrics of a family and name in some scopes, each with its place. -/
def placed (fleet : Fleet) (names : List String) (family : Family) (name : String) :
    List (Metric.Place × Metric) :=
  names.flatMap (fleet.placedIn family name)

/-- Without their places, these are the metrics that a request finds. -/
theorem map_snd_placed (fleet : Fleet) (names : List String) (family : Family) (name : String) :
    (fleet.placed names family name).map Prod.snd = fleet.metricsNamed names family name := by
  unfold placed metricsNamed
  rw [List.map_flatMap]
  refine List.flatMap_congr fun scope _ => ?_
  unfold placedIn metricsIn
  generalize (fleet.scopes.get? scope).elim [] (·.metrics) = metrics
  -- the list is that of the metrics in `metrics.zipIdx`, and the filter looks at nothing else
  conv_rhs => rw [← List.zipIdx_map_fst 0 metrics, List.filter_map]
  simp [Function.comp_def]

/-- The places of a scope where a metric of some family and name is defined. -/
theorem mem_placedIn : (place, m) ∈ fleet.placedIn family name scope ↔
    place.scope = scope ∧ fleet.DefinesAt place m ∧ m.family = family ∧ m.name = name := by
  simp only [placedIn, List.mem_map, List.mem_filter, Prod.exists, List.mk_mem_zipIdx_iff_getElem?,
    Prod.mk.injEq, Bool.and_eq_true, decide_eq_true_eq, beq_iff_eq]
  constructor
  · rintro ⟨m, position, ⟨hm, hfamily, hname⟩, rfl, rfl⟩
    refine ⟨rfl, ?_, hfamily, hname⟩
    cases hget : fleet.scopes.get? scope with
    | none => simp [hget] at hm
    | some s => exact ⟨s, hget, by simpa [hget] using hm⟩
  · rintro ⟨rfl, ⟨s, hget, hm⟩, hfamily, hname⟩
    exact ⟨m, place.position, ⟨by simpa [hget] using hm, hfamily, hname⟩, rfl, rfl⟩

/-- The list holds the metrics of the family and name, each with its place. -/
theorem mem_placed : (place, m) ∈ fleet.placed names family name ↔
    place.scope ∈ names ∧ fleet.DefinesAt place m ∧ m.family = family ∧ m.name = name := by
  simp [placed, mem_placedIn]

/-- **Each place comes once** if each scope is named once. -/
theorem nodup_placed (h : names.Nodup) :
    ((fleet.placed names family name).map Prod.fst).Nodup := by
  unfold placed
  rw [List.map_flatMap, List.nodup_flatMap]
  constructor
  · -- in one scope no position comes twice
    intro scope _
    unfold placedIn
    rw [List.map_map]
    have hpositions : ∀ metrics : List Metric, (metrics.zipIdx.map Prod.snd).Nodup := by
      intro metrics
      rw [List.zipIdx_map_snd]
      exact List.nodup_range'
    refine List.Nodup.of_map Metric.Place.position ?_
    rw [List.map_map]
    exact (hpositions _).sublist (List.filter_sublist.map Prod.snd)
  · -- and places under different names differ
    refine h.imp fun {scope scope'} hne place hplace hplace' => ?_
    obtain ⟨⟨_, m⟩, hm, rfl⟩ := List.mem_map.mp hplace
    obtain ⟨⟨_, m'⟩, hm', rfl⟩ := List.mem_map.mp hplace'
    exact hne ((mem_placedIn.mp hm).1.symm.trans (mem_placedIn.mp hm').1)

end Fleet

namespace Store

variable {store : Store} {scopes : List String} {family : Family} {name : String}

/-- The places in the visible scopes at which a metric of a family and name is defined. -/
def definitions (store : Store) (scopes : List String) (family : Family) (name : String) :
    Set Metric.Place :=
  {place | place.scope ∈ store.visibleNames scopes ∧
    ∃ m, store.fleet.DefinesAt place m ∧ m.family = family ∧ m.name = name}

/-- The places are those of the metrics in the list. -/
theorem mem_definitions {place : Metric.Place} : place ∈ store.definitions scopes family name ↔
    place ∈ (store.fleet.placed (store.visibleNames scopes) family name).map Prod.fst := by
  simp [definitions, Fleet.mem_placed]

/-- There are finitely many definitions. -/
theorem finite_definitions : (store.definitions scopes family name).Finite :=
  ((store.fleet.placed (store.visibleNames scopes) family name).map Prod.fst).finite_toSet.subset
    fun _ => mem_definitions.mp

/-- There are as many places as metrics in the list. -/
theorem ncard_definitions (h : (store.visibleNames scopes).Nodup) :
    (store.definitions scopes family name).ncard
      = (store.fleet.metricsNamed (store.visibleNames scopes) family name).length := by
  classical
  set places := (store.fleet.placed (store.visibleNames scopes) family name).map Prod.fst
  have hset : store.definitions scopes family name = places.toFinset := by
    ext place
    rw [mem_definitions, Finset.mem_coe, List.mem_toFinset]
  rw [hset, Set.ncard_coe_finset, List.toFinset_card_of_nodup (Fleet.nodup_placed h),
    List.length_map, ← Fleet.map_snd_placed, List.length_map]

/-- A metric is alone in the list if the place at which it is defined is the only one. -/
theorem metricsNamed_eq_singleton_iff (h : (store.visibleNames scopes).Nodup) {m : Metric} :
    store.fleet.metricsNamed (store.visibleNames scopes) family name = [m] ↔
      ∃ place, store.definitions scopes family name = {place} ∧ store.fleet.DefinesAt place m ∧
        m.family = family ∧ m.name = name := by
  constructor
  · intro hnamed
    rw [← Fleet.map_snd_placed, List.map_eq_singleton_iff] at hnamed
    obtain ⟨⟨place, m⟩, hplaced, rfl⟩ := hnamed
    have hmem : (place, m) ∈ store.fleet.placed (store.visibleNames scopes) family name := by
      simp [hplaced]
    refine ⟨place, ?_, (Fleet.mem_placed.mp hmem).2⟩
    ext place'
    simp [mem_definitions, hplaced]
  · rintro ⟨place, hplaces, hm, -⟩
    have hlength :
        (store.fleet.metricsNamed (store.visibleNames scopes) family name).length = 1 := by
      rw [← ncard_definitions h, hplaces, Set.ncard_singleton]
    obtain ⟨m', hm'⟩ := List.length_eq_one_iff.mp hlength
    -- the one metric that is left is defined at the same place
    have hmem : m' ∈ (store.fleet.placed (store.visibleNames scopes) family name).map Prod.snd := by
      simp [Fleet.map_snd_placed, hm']
    obtain ⟨⟨place', _⟩, hplaced, rfl⟩ := List.mem_map.mp hmem
    have hplace' : place' ∈ store.definitions scopes family name :=
      mem_definitions.mpr (List.mem_map_of_mem hplaced)
    rw [hplaces] at hplace'
    cases hplace'
    rw [hm', hm.unique (Fleet.mem_placed.mp hplaced).2.1]

/-- **A metric is found by its name** in a family if and only if it is defined at exactly one place
    in the visible scopes.  If there is no such place, it is not known; if there are several, the
    name is ambiguous, and the failure says how many there are.  This is so for all requests that
    are not interrupted and see no scope twice. -/
theorem metric_by_name {context : Context} {flags : Flags}
    (hinterruption : context.interruption flags = none)
    (hscopes : (store.visibleNames context.scopes).Nodup) (family : Family) (name : String) :
    let places := store.definitions context.scopes family name
    let result := (Inquiry.metric family name).result (store.inventory context.scopes)
      (context.interruption flags)
    places.Finite ∧
      (∀ m, result = .ok m ↔ ∃ place, places = {place} ∧ store.fleet.DefinesAt place m ∧
        m.family = family ∧ m.name = name) ∧
      (result = .error (.unknownMetric family name) ↔ places = ∅) ∧
      ∀ count, result = .error (.ambiguousMetric family name count) ↔
        2 ≤ count ∧ places.ncard = count := by
  intro places result
  have hresult : result = Metric.only family name
      ((Scope.allMetrics (store.visible context.scopes) family).map (Metric.ofSpec family)) := by
    show (Inquiry.metric family name).result _ (context.interruption flags) = _
    rw [hinterruption, Inquiry.result_metric]
    rfl
  -- what the program counts is the list of metrics of the name, each from its own place
  have hnamed := Fleet.filter_allMetrics store.fleet (store.visibleNames context.scopes) family name
  have hfinite : places.Finite := finite_definitions
  refine ⟨hfinite, fun m => ?_, ?_, fun count => ?_⟩
  · rw [hresult, Metric.only_eq_ok_iff, ← metricsNamed_eq_singleton_iff hscopes, ← hnamed]
    rfl
  · rw [hresult, Metric.only_eq_unknown_iff, ← Set.ncard_eq_zero hfinite,
      ncard_definitions hscopes, List.length_eq_zero_iff, ← hnamed]
    rfl
  · rw [hresult, Metric.only_eq_ambiguous_iff, ncard_definitions hscopes, ← hnamed]
    rfl

end Store

namespace TwoClusters

/-- Who may see both scopes. -/
def overview : Context := { scopes := ["main", "shadow"] }

/-- The metric of the first scope is found by those who may not see the second one, where it is
    defined too.  Who may see both is told that there are two, and none in another family. -/
theorem metric_shadowed :
    context.interruption {} = none ∧ (shadowedStore.visibleNames context.scopes).Nodup ∧
    (Inquiry.metric .ops "processors").result (shadowedStore.inventory context.scopes)
      (context.interruption {}) = .ok (.ops metric) ∧
    (∃ place, shadowedStore.definitions context.scopes .ops "processors" = {place} ∧
      shadowedStore.fleet.DefinesAt place (.ops metric)) ∧
    overview.interruption {} = none ∧ (shadowedStore.visibleNames overview.scopes).Nodup ∧
    (shadowedStore.definitions overview.scopes .ops "processors").ncard = 2 ∧
    shadowedStore.definitions overview.scopes .nup "processors" = ∅ := by
  have hgoes : context.interruption {} = none := rfl
  have hgoes' : overview.interruption {} = none := rfl
  have hcontext : (shadowedStore.visibleNames context.scopes).Nodup := by decide
  have hoverview : (shadowedStore.visibleNames overview.scopes).Nodup := by decide
  have hfound : (Inquiry.metric .ops "processors").result (shadowedStore.inventory context.scopes)
      (context.interruption {}) = .ok (.ops metric) := by
    decide +kernel
  have hseveral : (Inquiry.metric .ops "processors").result
      (shadowedStore.inventory overview.scopes) (overview.interruption {})
        = .error (.ambiguousMetric .ops "processors" 2) := by
    decide +kernel
  have hnone : (Inquiry.metric .nup "processors").result
      (shadowedStore.inventory overview.scopes) (overview.interruption {})
        = .error (.unknownMetric .nup "processors") := by
    decide +kernel
  obtain ⟨-, hone, -, -⟩ := Store.metric_by_name hgoes hcontext .ops "processors"
  obtain ⟨-, -, -, htwo⟩ := Store.metric_by_name hgoes' hoverview .ops "processors"
  obtain ⟨-, -, hempty, -⟩ := Store.metric_by_name hgoes' hoverview .nup "processors"
  -- exactly one definition is found by name, so it has a place
  obtain ⟨place, hplaces, hm, -⟩ := (hone (.ops metric)).mp hfound
  exact ⟨hgoes, hcontext, hfound, ⟨place, hplaces, hm⟩, hgoes', hoverview,
    ((htwo 2).mp hseveral).2, hempty.mp hnone⟩

end TwoClusters

end LicenseForecast
