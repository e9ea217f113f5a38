import LicenseForecast.Proofs.Forecast.OnMetric
import LicenseForecast.Proofs.Visibility

namespace LicenseForecast

/-!
# Scopes that are named more than once

The types of several scopes are told apart by their ids, and equipment is looked for in the first
scope that holds it.  So to name a scope again changes no such answer (`Scope.inventory_eraseDups`).
The metrics of a scope, though, are listed as often as the scope is named.

* `Fleet.length_metricsNamed_lt`, `Fleet.metricsNamed_eraseDups` — a metric in a scope that is
  named again counts as another one of the same name, and no other metric does;
* `Store.forecast_repeatedNames` — so a forecast fails if its metric is in a scope that is named
  more than once, and else it does not matter that names are repeated.
-/

/-! ### First occurrences -/

section

variable {α β γ : Type} [DecidableEq α] {l : List α}

/-- Without repetitions, one more element comes last, unless it has come before. -/
theorem eraseDups_concat (l : List α) (a : α) :
    (l ++ [a]).eraseDups = if a ∈ l then l.eraseDups else l.eraseDups ++ [a] := by
  rw [List.eraseDups_append]
  by_cases h : a ∈ l
  · simp [List.removeAll, h]
  · simp [List.removeAll, h, List.eraseDups_cons]

/-- **What is computed from one element after another**, and not changed by one that came before,
    is computed from first occurrences. -/
theorem eraseDups_foldl {F : List α → γ} (step : γ → α → γ)
    (hstep : ∀ l a, F (l ++ [a]) = step (F l) a) (hrepeat : ∀ l, ∀ a ∈ l, F (l ++ [a]) = F l) :
    F l.eraseDups = F l := by
  induction l using List.reverseRecOn with
  | nil => rfl
  | append_singleton l a ih =>
    rw [eraseDups_concat]
    split
    next hmem => rw [ih, hrepeat l a hmem]
    · rw [hstep, hstep, ih]

/-- Elements that add nothing may be repeated. -/
theorem flatMap_eraseDups {g : α → List β} (h : ∀ a, 1 < l.count a → g a = []) :
    l.eraseDups.flatMap g = l.flatMap g := by
  induction l using List.reverseRecOn with
  | nil => rfl
  | append_singleton l a ih =>
    have hbefore := ih fun b hb => h b (by rw [List.count_append]; omega)
    rw [eraseDups_concat, List.flatMap_append, List.flatMap_singleton]
    split
    next hmem =>
      have hpos : 0 < l.count a := List.count_pos_iff.mpr hmem
      rw [h a (by rw [List.count_append, List.count_singleton_self]; omega), List.append_nil]
      exact hbefore
    · rw [List.flatMap_append, List.flatMap_singleton, hbefore]

/-- An element that adds something adds it again when it is repeated. -/
theorem length_flatMap_eraseDups_lt {g : α → List β} {a : α} (hcount : 1 < l.count a)
    (ha : g a ≠ []) : (l.eraseDups.flatMap g).length < (l.flatMap g).length := by
  have hpos : 0 < (g a).length := List.length_pos_iff.mpr ha
  have hle : ∀ l : List α, (l.eraseDups.flatMap g).length ≤ (l.flatMap g).length := by
    intro l
    induction l using List.reverseRecOn with
    | nil => exact le_rfl
    | append_singleton l b ih =>
      rw [eraseDups_concat]
      split <;> simp only [List.flatMap_append, List.length_append] <;> omega
  induction l using List.reverseRecOn with
  | nil => cases hcount
  | append_singleton l b ih =>
    rw [List.count_append] at hcount
    rw [eraseDups_concat, List.flatMap_append, List.flatMap_singleton, List.length_append]
    by_cases hab : a = b
    · subst hab
      -- the last occurrence is not the first, so it is dropped
      have hmem : a ∈ l := by
        rw [List.count_singleton_self] at hcount
        exact List.count_pos_iff.mp (by omega)
      rw [if_pos hmem]
      have := hle l
      omega
    · rw [List.count_singleton, if_neg (by simpa using fun h => hab h.symm)] at hcount
      have hlt := ih hcount
      split
      · omega
      · rw [List.flatMap_append, List.flatMap_singleton, List.length_append]
        omega

end

/-! ### Types -/

namespace EquipmentType

variable {seen seen' : List String} {types : List EquipmentType}

/-- Only which ids have been met before matters, and not in which order. -/
theorem distinctFrom_congr (h : ∀ id, id ∈ seen ↔ id ∈ seen') :
    distinctFrom seen types = distinctFrom seen' types := by
  induction types generalizing seen seen' with
  | nil => rfl
  | cons t rest ih =>
    have hcontains : seen.contains t.id = seen'.contains t.id := by
      rw [Bool.eq_iff_iff, List.contains_iff_mem, List.contains_iff_mem, h]
    have hmet : ∀ id, id ∈ t.id :: seen ↔ id ∈ t.id :: seen' := by
      intro id
      rw [List.mem_cons, List.mem_cons, h]
    unfold distinctFrom
    rw [hcontains, ih h, ih hmet]

/-- The types of some scopes and of others after them. -/
theorem distinctFrom_append (seen : List String) (types more : List EquipmentType) :
    distinctFrom seen (types ++ more) = distinctFrom seen types
      ++ distinctFrom ((distinctFrom seen types).map (·.id) ++ seen) more := by
  induction types generalizing seen with
  | nil => rfl
  | cons t rest ih =>
    rw [List.cons_append, distinctFrom, distinctFrom]
    split
    · exact ih seen
    · rw [ih, List.cons_append, List.map_cons]
      rw [List.cons.injEq, List.append_cancel_left_eq]
      refine ⟨rfl, distinctFrom_congr fun id => ?_⟩
      simp only [List.mem_append, List.mem_cons]
      tauto

/-- The id of each type has been met in the end. -/
theorem mem_distinctFrom {t : EquipmentType} (ht : t ∈ types) :
    t.id ∈ (distinctFrom seen types).map (·.id) ++ seen := by
  induction types generalizing seen with
  | nil => cases ht
  | cons t' rest ih =>
    rw [distinctFrom]
    split
    next hseen =>
      rcases List.mem_cons.mp ht with rfl | ht
      · exact List.mem_append_right _ (List.contains_iff_mem.mp hseen)
      · exact ih ht
    -- a type that is kept joins the ids seen by the rest
    · rw [List.map_cons, List.cons_append]
      rcases List.mem_cons.mp ht with rfl | ht
      · exact List.mem_cons_self
      · have hmet : t.id ∈ (distinctFrom (t'.id :: seen) rest).map (·.id) ++ t'.id :: seen := ih ht
        simp only [List.mem_append, List.mem_cons] at hmet ⊢
        tauto

/-- Types that have all been met before are left out. -/
theorem distinctFrom_of_seen (h : ∀ t ∈ types, t.id ∈ seen) : distinctFrom seen types = [] := by
  induction types with
  | nil => rfl
  | cons t rest ih =>
    rw [distinctFrom, if_pos (List.contains_iff_mem.mpr (h t List.mem_cons_self))]
    exact ih fun t' ht' => h t' (List.mem_cons_of_mem _ ht')

end EquipmentType

namespace Scope

variable (get : String → Option Scope) (names : List String)

/-- **Types do not change** when a scope is named again. -/
theorem allTypes_eraseDups :
    allTypes (names.eraseDups.filterMap get) = allTypes (names.filterMap get) := by
  refine eraseDups_foldl (F := fun names => allTypes (names.filterMap get))
    (fun types name => types ++
      EquipmentType.distinctFrom (types.map (·.id) ++ [])
        (([name].filterMap get).flatMap (·.types)))
    (fun names name => ?_) fun names name hname => ?_
  · simp only [allTypes, List.filterMap_append, List.flatMap_append,
      EquipmentType.distinctFrom_append]
  · simp only [allTypes, List.filterMap_append, List.flatMap_append,
      EquipmentType.distinctFrom_append]
    -- all types of the scope have been met
    refine (congrArg (_ ++ ·) (EquipmentType.distinctFrom_of_seen fun t ht => ?_)).trans
      (List.append_nil _)
    refine EquipmentType.mem_distinctFrom ?_
    obtain ⟨s, hs, ht⟩ := List.mem_flatMap.mp ht
    obtain ⟨_, hsingle, hget⟩ := List.mem_filterMap.mp hs
    cases List.mem_singleton.mp hsingle
    exact List.mem_flatMap.mpr ⟨s, List.mem_filterMap.mpr ⟨name, hname, hget⟩, ht⟩

/-- **The first scope that holds some equipment** does not change when a scope is named again. -/
theorem find?_eraseDups (p : Scope → Bool) :
    (names.eraseDups.filterMap get).find? p = (names.filterMap get).find? p := by
  refine eraseDups_foldl (F := fun names => (names.filterMap get).find? p)
    (fun found name => found.or (([name].filterMap get).find? p))
    (fun names name => ?_) fun names name hname => ?_
  · simp only [List.filterMap_append, List.find?_append]
  · simp only [List.filterMap_append, List.find?_append]
    cases hfound : (names.filterMap get).find? p with
    | some s => rfl
    | none =>
      rw [Option.none_or, List.find?_eq_none]
      intro s hs
      obtain ⟨_, hsingle, hget⟩ := List.mem_filterMap.mp hs
      cases List.mem_singleton.mp hsingle
      exact List.find?_eq_none.mp hfound s (List.mem_filterMap.mpr ⟨name, hname, hget⟩)

/-- **No answer about anything but metrics changes** when a scope is named again. -/
theorem inventory_eraseDups {query : Query} (h : query.IsOther) :
    Scope.inventory (names.eraseDups.filterMap get) query
      = Scope.inventory (names.filterMap get) query := by
  cases query with
  | metrics family => exact absurd rfl (h family)
  | equipmentTypes => exact congrArg Except.ok (allTypes_eraseDups get names)
  | _ => simp only [inventory, anchored, find?_eraseDups]

end Scope

/-! ### Metrics -/

namespace Fleet

variable {fleet : Fleet} {names : List String} {family : Family} {name : String}

/-- The metrics of a family and name in one scope. -/
def metricsIn (fleet : Fleet) (family : Family) (name scope : String) : List Metric :=
  ((fleet.scopes.get? scope).elim [] (·.metrics)).filter fun m =>
    m.family = family && m.name == name

/-- The metrics of a family and name in some scopes. -/
def metricsNamed (fleet : Fleet) (names : List String) (family : Family) (name : String) :
    List Metric :=
  names.flatMap (fleet.metricsIn family name)

/-- A scope that is named more than once has a metric of a family and name. -/
def Repeats (fleet : Fleet) (names : List String) (family : Family) (name : String) : Prop :=
  ∃ scope s, 1 < names.count scope ∧ fleet.scopes.get? scope = some s ∧
    ∃ m ∈ s.metrics, m.family = family ∧ m.name = name

/-- The metrics of a family among others. -/
theorem map_ofSpec (family : Family) (metrics : List Metric) :
    (metrics.filterMap (Metric.spec? family)).map (Metric.ofSpec family)
      = metrics.filter (·.family = family) := by
  rw [List.map_filterMap, ← List.filterMap_eq_filter]
  refine List.filterMap_congr fun m _ => ?_
  cases family <;> cases m <;> rfl

/-- What a request finds that asks for a metric by its name. -/
theorem filter_allMetrics (fleet : Fleet) (names : List String) (family : Family) (name : String) :
    ((Scope.allMetrics (names.filterMap fleet.scopes.get?) family).map
      (Metric.ofSpec family)).filter (·.name == name) = fleet.metricsNamed names family name := by
  rw [Scope.allMetrics, map_ofSpec, List.filter_filter, flatMap_visible, List.filter_flatMap]
  refine List.flatMap_congr fun scope _ => List.filter_congr fun m _ => ?_
  exact Bool.and_comm ..

/-- A scope has a metric of some family and name if one of its metrics is of both. -/
theorem metricsIn_ne_nil {scope : String} : fleet.metricsIn family name scope ≠ [] ↔
    ∃ s, fleet.scopes.get? scope = some s ∧ ∃ m ∈ s.metrics, m.family = family ∧ m.name = name := by
  unfold metricsIn
  cases fleet.scopes.get? scope with
  | none => simp
  | some s => simp [List.filter_eq_nil_iff]

/-- A metric in a scope that is named again counts again. -/
theorem length_metricsNamed_lt (h : fleet.Repeats names family name) :
    0 < (fleet.metricsNamed names.eraseDups family name).length ∧
      (fleet.metricsNamed names.eraseDups family name).length
        < (fleet.metricsNamed names family name).length := by
  obtain ⟨scope, s, hcount, hs⟩ := h
  have hsome : fleet.metricsIn family name scope ≠ [] := metricsIn_ne_nil.mpr ⟨s, hs⟩
  refine ⟨?_, length_flatMap_eraseDups_lt hcount hsome⟩
  obtain ⟨m, hm⟩ := List.exists_mem_of_ne_nil _ hsome
  have hscope : scope ∈ names.eraseDups :=
    List.mem_eraseDups.mpr (List.count_pos_iff.mp (Nat.zero_lt_of_lt hcount))
  exact List.length_pos_of_mem (List.mem_flatMap.mpr ⟨scope, hscope, hm⟩)

/-- No other metric does. -/
theorem metricsNamed_eraseDups (h : ¬ fleet.Repeats names family name) :
    fleet.metricsNamed names.eraseDups family name = fleet.metricsNamed names family name := by
  refine flatMap_eraseDups fun scope hcount => ?_
  by_contra hne
  obtain ⟨s, hs⟩ := metricsIn_ne_nil.mp hne
  exact h ⟨scope, s, hcount, hs⟩

end Fleet

/-! ### Forecasts -/

namespace Metric

variable {family : Family} {name : String} {metrics metrics' : List Metric}

/-- Only the metrics of the name matter. -/
theorem only_congr
    (h : metrics.filter (·.name == name) = metrics'.filter (·.name == name)) :
    Metric.only family name metrics = Metric.only family name metrics' := by
  unfold Metric.only
  rw [h]

end Metric

namespace Request

/-- What the names of some scopes being repeated does to a forecast: `again` is its course where
    they are, and `once` is its course where each is given once.  Either the two are the same, or
    the metric is in a scope that is named again and counts as several. -/
structure NamedAgain (request : Request) (fleet : Fleet) (names : List String)
    (again once : List Query × Except Failure Forecast) : Prop where
  same : (∀ family, Query.metrics family ∈ again.1 →
    ¬ fleet.Repeats names family request.metricName) → again = once
  ambiguous : ∀ family, Query.metrics family ∈ again.1 →
    fleet.Repeats names family request.metricName →
    again = ([.equipmentTypes, .metrics family], .error (.ambiguousMetric family request.metricName
      (fleet.metricsNamed names family request.metricName).length)) ∧
    (fleet.metricsNamed names.eraseDups family request.metricName).length
      < (fleet.metricsNamed names family request.metricName).length ∧
    again.2 ≠ once.2

/-- The course of a forecast about some scopes of a fleet. -/
def courseIn (request : Request) (fleet : Fleet) (names : List String)
    (interruption : Nat → Option Interruption) : List Query × Except Failure Forecast :=
  request.forecast.run
    ⟨fun _ => Scope.inventory (names.filterMap fleet.scopes.get?), interruption⟩ 0

/-- Without repeated names there is nothing to compare. -/
theorem namedAgain_self (request : Request) (fleet : Fleet) {names : List String}
    (h : names.Nodup) (run : List Query × Except Failure Forecast) :
    request.NamedAgain fleet names run run where
  same _ := rfl
  ambiguous family _ hrepeats := by
    obtain ⟨scope, _, hcount, -⟩ := hrepeats
    exact absurd hcount (Nat.not_lt.mpr (List.nodup_iff_count_le_one.mp h scope))

section

variable {request : Request} {fleet : Fleet} {names : List String} {family : Family}
  {again once : Inquiry.World} {forest : Forest} {old new : Readings}

/-- The metrics of a family that some scopes of a fleet list. -/
private abbrev specsIn (fleet : Fleet) (names : List String) (family : Family) :
    List family.Spec :=
  Scope.allMetrics (names.filterMap fleet.scopes.get?) family

/-- A metric that counts as several is not found, and a forecast that finds it does not fail for
    that reason any more. -/
private theorem namedAgain_of_repeats (h : fleet.Repeats names family request.metricName) :
    request.NamedAgain fleet names
      (request.courseFrom again forest old new family (specsIn fleet names family))
      (request.courseFrom once forest old new family (specsIn fleet names.eraseDups family)) := by
  obtain ⟨hpos, hlt⟩ := Fleet.length_metricsNamed_lt h
  have hseveral : Metric.only family request.metricName
      ((specsIn fleet names family).map (Metric.ofSpec family))
        = .error (.ambiguousMetric family request.metricName
          (fleet.metricsNamed names family request.metricName).length) := by
    rw [Metric.only_eq_ambiguous_iff, Fleet.filter_allMetrics]
    exact ⟨by omega, rfl⟩
  have hagain : request.courseFrom again forest old new family (specsIn fleet names family)
      = ([.equipmentTypes, .metrics family], .error (.ambiguousMetric family request.metricName
          (fleet.metricsNamed names family request.metricName).length)) := by
    rw [courseFrom, hseveral]
  -- listed again, the definition is ambiguous with a larger number than listed once
  refine ⟨fun hnot => absurd h (hnot family metrics_mem_courseFrom), fun family' hmetrics _ => ?_⟩
  cases family_of_courseFrom hmetrics
  refine ⟨hagain, hlt, fun heq => ?_⟩
  rw [hagain, courseFrom] at heq
  split at heq
  next failure hfound =>
    cases heq
    obtain ⟨-, hcount⟩ := Metric.only_eq_ambiguous_iff.mp hfound
    rw [Fleet.filter_allMetrics] at hcount
    omega
  next m _ =>
    rcases (request.onMetric_confined forest old new m).fails_of_run heq.symm with h | ⟨_, h⟩ <;>
      cases h

/-- A metric that is not in a scope named again is found as before. -/
private theorem namedAgain_of_not_repeats (h : ¬ fleet.Repeats names family request.metricName)
    (hinterruption : once.interruption = again.interruption)
    (hother : ∀ k query, query.IsOther → once.inventory k query = again.inventory k query) :
    request.NamedAgain fleet names
      (request.courseFrom again forest old new family (specsIn fleet names family))
      (request.courseFrom once forest old new family (specsIn fleet names.eraseDups family)) := by
  have honly : Metric.only family request.metricName
      ((specsIn fleet names.eraseDups family).map (Metric.ofSpec family))
        = Metric.only family request.metricName
          ((specsIn fleet names family).map (Metric.ofSpec family)) := by
    refine Metric.only_congr ?_
    rw [Fleet.filter_allMetrics, Fleet.filter_allMetrics, Fleet.metricsNamed_eraseDups h]
  -- what a name repeats without a metric of the request changes nothing
  refine ⟨fun _ => ?_, fun family' hmetrics hrepeats => ?_⟩
  · unfold courseFrom
    rw [honly]
    split
    · rfl
    next m _ =>
      simp only [(request.onMetric_confined forest old new m).run_congr hinterruption hother]
  · cases family_of_courseFrom hmetrics
    exact absurd hrepeats h

end

/-- **A forecast about scopes that are named more than once.** -/
theorem courseIn_eraseDups (request : Request) (fleet : Fleet) (names : List String)
    (interruption : Nat → Option Interruption) :
    request.NamedAgain fleet names (request.courseIn fleet names interruption)
      (request.courseIn fleet names.eraseDups interruption) := by
  let again : Inquiry.World :=
    ⟨fun _ => Scope.inventory (names.filterMap fleet.scopes.get?), interruption⟩
  let once : Inquiry.World :=
    ⟨fun _ => Scope.inventory (names.eraseDups.filterMap fleet.scopes.get?), interruption⟩
  have hother : ∀ k query, query.IsOther → once.inventory k query = again.inventory k query :=
    fun _ _ hquery => Scope.inventory_eraseDups fleet.scopes.get? names hquery
  have hplan := request.preamble_follows again
  have hpreamble : request.preamble.run once 0 = request.preamble.run again 0 := by
    refine Inquiry.run_congr rfl fun k query hquery => hother _ query ?_
    have hmem := hplan.inOrder.subset (List.mem_of_getElem? hquery)
    rw [List.mem_singleton.mp hmem]
    exact fun _ => nofun
  show request.NamedAgain fleet names (request.forecast.run again 0) (request.forecast.run once 0)
  cases hresult : (request.preamble.run again 0).2 with
  | error failure =>
    -- the forecast fails before it asks for metrics
    rw [run_of_preamble_error hresult, run_of_preamble_error (hpreamble ▸ hresult), hpreamble]
    refine ⟨fun _ => rfl, fun family hmetrics => ?_⟩
    cases List.mem_singleton.mp (hplan.inOrder.subset hmetrics)
  | ok found =>
    obtain ⟨family, forest, old, new⟩ := found
    have hinterruption : once.interruption 1 = again.interruption 1 := rfl
    rw [run_of_preamble hresult rfl, run_of_preamble (hpreamble ▸ hresult) rfl, hinterruption]
    cases again.interruption 1 with
    | some cause =>
      refine ⟨fun _ => rfl, fun family' hmetrics => ?_⟩
      cases List.mem_singleton.mp hmetrics
    | none =>
      by_cases hrepeats : fleet.Repeats names family request.metricName
      · exact namedAgain_of_repeats hrepeats
      · exact namedAgain_of_not_repeats hrepeats rfl hother

end Request

/-! ### Stores -/

namespace Store

/-- The store with each of its default scopes named once. -/
def distinctDefaults (store : Store) : Store where
  settings := { store.settings with defaultScopes := store.settings.defaultScopes.eraseDups }
  fleet := store.fleet
  accepted := store.accepted

/-- **Scopes that are named more than once**, by a request or as default scopes.  Unless the metric
    of a forecast is in such a scope, the forecast is that with each scope named once.  If it is,
    the forecast fails because the metric counts as several, and that with each scope named once
    does not fail so.  Of default scopes only requests take notice that name none. -/
theorem forecast_repeatedNames (store : Store) (request : Request)
    (interruption : Nat → Option Interruption) :
    let run (store : Store) (scopes : List String) :=
      request.forecast.run ⟨fun _ => store.inventory scopes, interruption⟩ 0
    (∀ scopes, request.NamedAgain store.fleet scopes
      (run store scopes) (run store scopes.eraseDups)) ∧
    request.NamedAgain store.fleet store.settings.defaultScopes
      (run store []) (run store.distinctDefaults []) ∧
    ∀ scope scopes, run store.distinctDefaults (scope :: scopes) = run store (scope :: scopes) := by
  intro run
  refine ⟨fun scopes => ?_, ?_, fun scope scopes => rfl⟩
  · cases scopes with
    | nil => exact request.namedAgain_self store.fleet List.nodup_nil _
    | cons scope rest =>
      have honce : run store (scope :: rest).eraseDups
          = request.courseIn store.fleet (scope :: rest).eraseDups interruption := by
        rw [List.eraseDups_cons]
        rfl
      rw [honce]
      exact request.courseIn_eraseDups store.fleet (scope :: rest) interruption
  · exact request.courseIn_eraseDups store.fleet store.settings.defaultScopes interruption

end Store

/-- The metric of the first scope counts twice for those who name the scope twice. -/
example : (TwoClusters.toOneCore 2.0).forecast.result
    (TwoClusters.store.inventory ["main", "main"]) none
      = .error (.ambiguousMetric .ops "processors" 2) := by
  decide +kernel

end LicenseForecast
