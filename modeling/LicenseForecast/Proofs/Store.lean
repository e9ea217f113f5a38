import LicenseForecast.Proofs.Dictionary
import LicenseForecast.Proofs.Fleet.Linked
import LicenseForecast.Store

namespace LicenseForecast

/-!
# Stores and the scopes they serve

Whatever fleet a store serves has passed its checks, so every visible scope is sound
(`Store.sound_of_visible`).  Where one scope alone is visible, all questions go to that scope.
-/

/-! ### Questions to a single scope -/

namespace Scope

variable {s : Scope} {f : Forest} {rule : PooledRule}

/-- A question about some equipment goes to the first scope that holds it. -/
theorem anchored_of_find? {scopes : List Scope} {id typeName : String}
    (h : scopes.find? (·.holds id typeName) = some s) {α : Type}
    (answer : Scope → Except LookupFault α) : anchored scopes id typeName answer = answer s := by
  unfold anchored
  rw [h]

/-- The only scope answers for its own assets. -/
theorem Sound.anchored_eq (hs : s.Sound f) {a : Asset} (ha : a ∈ s.assets) {α : Type}
    (answer : Scope → Except LookupFault α) : anchored [s] a.id a.typeName answer = answer s := by
  have hholds : s.holds a.id a.typeName = true := by
    unfold holds
    rw [hs.asset?_eq ha]
    exact beq_self_eq_true _
  exact anchored_of_find? (List.find?_cons_of_pos hholds) answer

/-- It adds up the pools below them. -/
theorem Sound.inventory_computedLicenses (hs : s.Sound f) {a : Asset} (ha : a ∈ s.assets) :
    Scope.inventory [s] (.computedLicenses a.id a.typeName rule) = s.computedLicenses a.id rule :=
  hs.anchored_eq ha fun s => s.computedLicenses a.id rule

/-- It gives the figures of a pool that one of them is the root of. -/
theorem Sound.inventory_pooledLicenses (hs : s.Sound f) {a : Asset} (ha : a ∈ s.assets) :
    Scope.inventory [s] (.pooledLicenses a.id a.typeName rule) = s.pooledLicenses a.id rule :=
  hs.anchored_eq ha fun s => s.pooledLicenses a.id rule

/-- The types of a single scope, none of which comes up twice. -/
theorem Sound.allTypes_eq (hs : s.Sound f) : allTypes [s] = s.types := by
  -- an id is dropped only if it was seen, and here no id comes twice
  have hdistinct : ∀ {seen types : List _}, (types.map EquipmentType.id).Nodup →
      (∀ t ∈ types, t.id ∉ seen) → EquipmentType.distinctFrom seen types = types := by
    intro seen types hnodup hfresh
    induction types generalizing seen with
    | nil => rfl
    | cons t rest ih =>
      obtain ⟨hid, hnodup⟩ := List.nodup_cons.mp hnodup
      have hseen : seen.contains t.id = false := by
        simpa using hfresh t List.mem_cons_self
      unfold EquipmentType.distinctFrom
      rw [hseen]
      refine congrArg (t :: ·) (ih hnodup fun t' ht' => ?_)
      rw [List.mem_cons, not_or]
      exact ⟨fun heq => hid (heq ▸ List.mem_map_of_mem ht'),
        hfresh t' (List.mem_cons_of_mem _ ht')⟩
  obtain ⟨hf, htypes⟩ := Forest.sound_of_ofTypes hs.types_eq
  have hids := hf.ids_nodup
  rw [htypes] at hids
  unfold allTypes
  rw [List.flatMap_singleton]
  exact hdistinct hids fun _ _ => List.not_mem_nil

end Scope

namespace Store

variable {store : Store}

/-- Every scope of a fleet that is served has passed its checks. -/
theorem check_of_mem_entries {entry : String × Scope} (h : entry ∈ store.fleet.scopes.entries) :
    entry.2.check entry.1 store.settings.strict = .ok () :=
  forM_eq_ok.mp store.accepted entry h

/-- **A visible scope is sound.** -/
theorem sound_of_visible {scopes : List String} {s : Scope} (h : s ∈ store.visible scopes) :
    ∃ f, s.Sound f := by
  obtain ⟨name, -, hget⟩ := List.mem_filterMap.mp h
  exact Scope.sound_of_check (check_of_mem_entries (Dictionary.get?_eq_some_iff.mp hget))

/-- A store is that of its own fleet. -/
theorem ofFleet_self (store : Store) : ofFleet store.settings store.fleet = .ok store := by
  unfold ofFleet
  split
  · rfl
  next fault hfault =>
    rw [store.accepted] at hfault
    cases hfault

/-- The store of a fleet has that fleet and its settings. -/
theorem eq_of_ofFleet {settings : Settings} {fleet : Fleet}
    (h : ofFleet settings fleet = .ok store) : store.settings = settings ∧ store.fleet = fleet := by
  unfold ofFleet at h
  split at h
  · cases h
    exact ⟨rfl, rfl⟩
  · cases h

/-- **A fleet that passes the checks is served.** -/
theorem ofFleet_of_check {settings : Settings} {fleet : Fleet}
    (h : fleet.check settings.strict = .ok ()) :
    ∃ store, Store.ofFleet settings fleet = .ok store ∧ store.settings = settings ∧
      store.fleet = fleet :=
  ⟨⟨settings, fleet, h⟩, ofFleet_self ⟨settings, fleet, h⟩, rfl, rfl⟩

end Store

end LicenseForecast
