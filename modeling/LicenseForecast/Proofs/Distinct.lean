import LicenseForecast.Store
import Mathlib.Data.List.Basic

namespace LicenseForecast

/-!
# The first of each key

Types of the same id and users who come up more than once are left out in the same way: going
through a list, whatever has a key that has been met before is dropped.  So what is kept is the
first of each key (`KeepsFirst.mem_iff`), and the keys are those of the list
(`KeepsFirst.mem_keys_iff`), each of them once (`KeepsFirst.nodup`).
-/

/-- Elements whose keys have been met before are left out; `seen` are the keys met before the
    list. -/
structure KeepsFirst {α : Type} (key : α → String) (distinct : List String → List α → List α) :
    Prop where
  nil : ∀ seen, distinct seen [] = []
  cons : ∀ seen a rest, distinct seen (a :: rest)
    = if seen.contains (key a) then distinct seen rest else a :: distinct (key a :: seen) rest

namespace KeepsFirst

variable {α : Type} {key : α → String} {distinct : List String → List α → List α}
  {seen : List String} {l : List α}

/-- **What is kept** is the first element of each key that has not been met before. -/
theorem mem_iff (h : KeepsFirst key distinct) {a : α} : a ∈ distinct seen l ↔
    key a ∉ seen ∧ l.find? (key · == key a) = some a := by
  induction l generalizing seen with
  | nil =>
    rw [h.nil]
    exact ⟨nofun, nofun⟩
  | cons b rest ih =>
    rw [h.cons, List.find?_cons]
    -- an element of the same key hides those behind it; one of another key changes nothing
    by_cases hkey : key b = key a
    · rw [hkey, beq_self_eq_true]
      split
      next hseen => simp [ih, List.contains_iff_mem.mp hseen]
      next hseen =>
        have hfresh : key a ∉ seen := fun h => hseen (List.contains_iff_mem.mpr h)
        simp [ih, hfresh, eq_comm]
    · rw [beq_eq_false_iff_ne.mpr hkey]
      split
      · exact ih
      · have hne : a ≠ b := fun h => hkey (h ▸ rfl)
        simp [ih, hne, Ne.symm hkey]

/-- **No key is kept twice.** -/
theorem nodup (h : KeepsFirst key distinct) : ((distinct seen l).map key).Nodup := by
  induction l generalizing seen with
  | nil =>
    rw [h.nil]
    exact List.nodup_nil
  | cons a rest ih =>
    rw [h.cons]
    split
    · exact ih
    · refine List.nodup_cons.mpr ⟨fun hmem => ?_, ih⟩
      obtain ⟨b, hb, hkey⟩ := List.mem_map.mp hmem
      have hfresh := (h.mem_iff.mp hb).1
      exact hfresh (hkey ▸ List.mem_cons_self)

/-- The keys that are kept are those of the list, if none has been met before. -/
theorem mem_keys_iff (h : KeepsFirst key distinct) {k : String} :
    k ∈ (distinct [] l).map key ↔ k ∈ l.map key := by
  simp only [List.mem_map]
  constructor
  · rintro ⟨a, ha, hkey⟩
    exact ⟨a, List.mem_of_find?_eq_some (h.mem_iff.mp ha).2, hkey⟩
  · rintro ⟨a, ha, rfl⟩
    cases hfind : l.find? (key · == key a) with
    | none => exact absurd (beq_self_eq_true _) (List.find?_eq_none.mp hfind a ha)
    | some b =>
      have hkey := List.find?_some hfind
      rw [beq_iff_eq] at hkey
      exact ⟨b, h.mem_iff.mpr ⟨List.not_mem_nil, hkey ▸ hfind⟩, hkey⟩

end KeepsFirst

/-- Types are known by their ids. -/
theorem EquipmentType.keepsFirst : KeepsFirst (·.id) EquipmentType.distinctFrom :=
  ⟨fun _ => rfl, fun _ _ _ => rfl⟩

/-- Users are known by their user ids. -/
theorem NamedUser.keepsFirst : KeepsFirst (·.userId) NamedUser.distinctFrom :=
  ⟨fun _ => rfl, fun _ _ _ => rfl⟩

end LicenseForecast
