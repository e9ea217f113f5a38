import LicenseForecast.Equipment.Forest
import LicenseForecast.Proofs.Outcome
import Mathlib.Data.Fintype.Pigeonhole
import Mathlib.Data.List.Nodup

namespace LicenseForecast

/-!
# Ways up in a forest

`Forest.ofTypes` lets through only forests in which every way up ends (`Sound`).  Hence no type
lies above itself, and a type lies at one height only above another (`ascend_unique`), which is
the distance that `Forest.distance` finds.
-/

/-! ### Walks among finitely many places -/

/-- **A walk among `n` places** is back at one of them after at most `n` steps. -/
theorem exists_round {α : Type} {n : Nat} {place : Fin n → α} {walk : Nat → Option α}
    (h : ∀ k ≤ n, ∃ i, walk k = some (place i)) :
    ∃ k l a, k < l ∧ l ≤ n ∧ walk k = some a ∧ walk l = some a := by
  have hplace : ∀ k : Fin (n + 1), ∃ i, walk k = some (place i) :=
    fun k => h k (Nat.le_of_lt_succ k.isLt)
  choose index hindex using hplace
  obtain ⟨k, l, hne, heq⟩ := Fintype.exists_ne_map_eq_of_card_lt index (by simp)
  have hround : ∀ {k l : Fin (n + 1)}, k < l → index k = index l →
      ∃ k l a, k < l ∧ l ≤ n ∧ walk k = some a ∧ walk l = some a := by
    intro k l hlt heq
    exact ⟨k, l, _, hlt, Nat.le_of_lt_succ l.isLt, heq ▸ hindex k, hindex l⟩
  rcases lt_or_gt_of_ne hne with hlt | hlt
  · exact hround hlt heq
  · exact hround hlt heq.symm

namespace Forest

deriving instance DecidableEq for Forest

/-! ### What an accepted forest is like -/

/-- Ids and names are distinct, and every way up ends. -/
structure Sound (f : Forest) : Prop where
  ids_nodup : (f.types.toList.map (·.id)).Nodup
  names_nodup : (f.types.toList.map (·.name)).Nodup
  ends : ∀ i < f.types.size, f.ascend (f.types.size + 1) i = none

/-- Nothing is repeated exactly if ids and names are distinct, from those before as well. -/
theorem duplicate?_eq_none {earlier types : List EquipmentType} :
    duplicate? earlier types = none ↔ (types.map (·.id)).Nodup ∧ (types.map (·.name)).Nodup ∧
      ∀ t ∈ types, ∀ e ∈ earlier, e.id ≠ t.id ∧ e.name ≠ t.name := by
  induction types generalizing earlier with
  | nil => exact ⟨fun _ => ⟨List.nodup_nil, List.nodup_nil, nofun⟩, fun _ => rfl⟩
  | cons t rest ih =>
    constructor
    · intro h
      unfold duplicate? at h
      split at h
      · cases h
      next hid =>
        split at h
        · cases h
        next hname =>
          obtain ⟨hids, hnames, hfresh⟩ := ih.mp h
          simp only [List.any_eq_true, beq_iff_eq, not_exists, not_and] at hid hname
          -- `t` is among the earlier types when the rest is looked at, so nothing there repeats it
          refine ⟨List.nodup_cons.mpr ⟨?_, hids⟩, List.nodup_cons.mpr ⟨?_, hnames⟩, ?_⟩
          · intro hmem
            obtain ⟨t', ht', heq⟩ := List.mem_map.mp hmem
            exact (hfresh t' ht' t List.mem_cons_self).1 heq.symm
          · intro hmem
            obtain ⟨t', ht', heq⟩ := List.mem_map.mp hmem
            exact (hfresh t' ht' t List.mem_cons_self).2 heq.symm
          · intro t' ht' e he
            rcases List.mem_cons.mp ht' with rfl | ht'
            · exact ⟨hid e he, hname e he⟩
            · exact hfresh t' ht' e (List.mem_cons_of_mem _ he)
    · rintro ⟨hids, hnames, hfresh⟩
      obtain ⟨hid, hids⟩ := List.nodup_cons.mp hids
      obtain ⟨hname, hnames⟩ := List.nodup_cons.mp hnames
      have hnew := hfresh t List.mem_cons_self
      have hidNew : earlier.any (·.id == t.id) = false := by
        simpa using fun e he => (hnew e he).1
      have hnameNew : earlier.any (·.name == t.name) = false := by
        simpa using fun e he => (hnew e he).2
      unfold duplicate?
      simp only [hidNew, hnameNew, Bool.false_eq_true, if_false]
      refine ih.mpr ⟨hids, hnames, fun t' ht' e he => ?_⟩
      -- what the rest is compared with is `t` or was there before
      rcases List.mem_cons.mp he with rfl | he
      · exact ⟨fun heq => hid (List.mem_map.mpr ⟨t', ht', heq.symm⟩),
          fun heq => hname (List.mem_map.mpr ⟨t', ht', heq.symm⟩)⟩
      · exact hfresh t' (List.mem_cons_of_mem _ ht') e he

/-- No type is reported exactly if every way up ends. -/
theorem endless?_eq_none {f : Forest} :
    f.endless? = none ↔ ∀ i < f.types.size, f.ascend (f.types.size + 1) i = none := by
  unfold endless?
  rw [Option.bind_eq_none_iff]
  constructor
  · intro h i hi
    cases hfind : (List.range f.types.size).find?
        fun i => (f.ascend (f.types.size + 1) i).isSome with
    | none =>
      have hnot := List.find?_eq_none.mp hfind i (List.mem_range.mpr hi)
      exact Option.not_isSome_iff_eq_none.mp hnot
    | some j =>
      -- an index that the search finds belongs to a type
      have hj : j < f.types.size := List.mem_range.mp (List.mem_of_find?_eq_some hfind)
      have hnone : f.types[j]? = none := h j hfind
      rw [Array.getElem?_eq_getElem hj] at hnone
      cases hnone
  · intro h j hfind
    have hj : j < f.types.size := List.mem_range.mp (List.mem_of_find?_eq_some hfind)
    have hsome := List.find?_some hfind
    rw [h j hj] at hsome
    cases hsome

/-- **A forest is accepted** if each of the three checks on its types is passed. -/
theorem ofTypes_eq_ok {types : List EquipmentType} {f : Forest} :
    ofTypes types = .ok f ↔ duplicate? [] types = none ∧ ∃ parents,
      types.mapM (findParent types.toArray) = .ok parents ∧
        f = ⟨types.toArray, parents.toArray⟩ ∧ f.endless? = none := by
  unfold ofTypes
  cases duplicate? [] types with
  | some fault => exact ⟨nofun, nofun⟩
  | none =>
    refine Iff.trans bind_eq_ok ?_
    simp only [true_and]
    refine exists_congr fun parents => and_congr_right fun _ => ?_
    cases hendless : endless? ⟨types.toArray, parents.toArray⟩ with
    | some t =>
      refine ⟨nofun, ?_⟩
      rintro ⟨rfl, h⟩
      cases hendless.symm.trans h
    | none =>
      constructor
      · intro h
        cases h
        exact ⟨rfl, hendless⟩
      · rintro ⟨rfl, -⟩
        rfl

/-- **What an accepted forest is like.** -/
theorem sound_of_ofTypes {types : List EquipmentType} {f : Forest}
    (h : Forest.ofTypes types = .ok f) : f.Sound ∧ f.types = types.toArray := by
  obtain ⟨hdup, parents, -, rfl, hendless⟩ := ofTypes_eq_ok.mp h
  obtain ⟨hids, hnames, -⟩ := duplicate?_eq_none.mp hdup
  exact ⟨⟨hids, hnames, endless?_eq_none.mp hendless⟩, rfl⟩

/-! ### Step by step -/

variable {f : Forest}

/-- A long way up is one way after another. -/
theorem ascend_add (m n i : Nat) : f.ascend (m + n) i = (f.ascend m i).bind (f.ascend n) := by
  induction m generalizing i with
  | zero => rw [Nat.zero_add]; rfl
  | succ m ih =>
    rw [Nat.succ_add]
    show (f.parentOf i).bind (f.ascend (m + n)) = ((f.parentOf i).bind (f.ascend m)).bind _
    cases f.parentOf i with
    | none => rfl
    | some p => exact ih p

/-- One step up leads to the parent. -/
theorem ascend_one (i : Nat) : f.ascend 1 i = f.parentOf i := by
  show (f.parentOf i).bind (f.ascend 0) = _
  cases f.parentOf i <;> rfl

/-- A way up that is longer comes through every place of a shorter one. -/
theorem isSome_ascend_of_le {m n i : Nat} (h : m ≤ n) (hn : (f.ascend n i).isSome) :
    (f.ascend m i).isSome := by
  obtain ⟨k, rfl⟩ := Nat.exists_eq_add_of_le h
  rw [ascend_add] at hn
  cases hm : f.ascend m i with
  | none =>
    rw [hm] at hn
    cases hn
  | some j => rfl

/-- A way up that comes back goes round as often as one likes. -/
private theorem ascend_mul {n i : Nat} (h : f.ascend n i = some i) (k : Nat) :
    f.ascend (k * n) i = some i := by
  induction k with
  | zero => rw [Nat.zero_mul]; rfl
  | succ k ih => rw [Nat.succ_mul, ascend_add, ih, Option.bind_some, h]

/-- **No way up comes back** to where it has been. -/
theorem Sound.no_return (hf : f.Sound) {m n i j : Nat} (hi : i < f.types.size)
    (hm : f.ascend m i = some j) (hn : 0 < n) : f.ascend n j ≠ some j := by
  intro h
  have hlong : f.ascend (m + (f.types.size + 1) * n) i = some j := by
    rw [ascend_add, hm, Option.bind_some, ascend_mul h]
  have hle : f.types.size + 1 ≤ m + (f.types.size + 1) * n :=
    Nat.le_trans (Nat.le_mul_of_pos_right _ hn) (Nat.le_add_left _ _)
  have hsome : (f.ascend (f.types.size + 1) i).isSome :=
    isSome_ascend_of_le hle (by rw [hlong]; rfl)
  rw [hf.ends i hi] at hsome
  cases hsome

/-- **A type lies at one height only above another.** -/
theorem Sound.ascend_unique (hf : f.Sound) {m n i j : Nat} (hi : i < f.types.size)
    (hm : f.ascend m i = some j) (hn : f.ascend n i = some j) : m = n := by
  have hlt : ∀ {m n : Nat}, f.ascend m i = some j → f.ascend n i = some j → ¬ m < n := by
    intro m n hm hn hlt
    obtain ⟨k, rfl⟩ := Nat.exists_eq_add_of_lt hlt
    rw [Nat.add_assoc, ascend_add, hm, Option.bind_some] at hn
    exact hf.no_return hi hm (Nat.succ_pos k) hn
  exact Nat.le_antisymm (Nat.not_lt.mp (hlt hn hm)) (Nat.not_lt.mp (hlt hm hn))

/-! ### Distances -/

/-- **A climb passes the types above one after another**, up to its bound. -/
theorem getElem?_climb {n k : Nat} (h : k < n) (i : Nat) :
    (f.climb n i)[k]? = f.ascend k i := by
  induction n generalizing k i with
  | zero => exact absurd h (Nat.not_lt_zero k)
  | succ n ih =>
    cases k with
    | zero => rfl
    | succ k =>
      show _ = (f.parentOf i).bind (f.ascend k)
      rw [climb, List.getElem?_cons_succ]
      cases f.parentOf i with
      | none => rfl
      | some p => exact ih (Nat.lt_of_succ_lt_succ h) p

/-- A way up of some steps is no longer than that. -/
theorem length_climb_le (n i : Nat) : (f.climb n i).length ≤ n := by
  induction n generalizing i with
  | zero => exact Nat.le_refl 0
  | succ n ih =>
    rw [climb, List.length_cons]
    cases f.parentOf i with
    | none => exact Nat.succ_le_succ (Nat.zero_le n)
    | some p => exact Nat.succ_le_succ (ih p)

/-- **A distance is the height at which a type lies above another.** -/
theorem ascend_of_distance {n i j : Nat} (h : f.distance i j = some n) :
    f.ascend n i = some j := by
  obtain ⟨hn, heq, -⟩ := List.idxOf?_eq_some_iff.mp h
  rw [← getElem?_climb (Nat.lt_of_lt_of_le hn (length_climb_le _ _)) i]
  show (f.ancestors i)[n]? = some j
  rw [List.getElem?_eq_getElem hn, heq]

/-- A distance is less than the number of types on the way up. -/
theorem lt_length_of_distance {n i j : Nat} (h : f.distance i j = some n) :
    n < (f.ancestors i).length :=
  (List.idxOf?_eq_some_iff.mp h).1

/-! ### Indices and names -/

/-- A type found by its id is in the forest. -/
theorem get?_of_indexOfId? {id : String} {i : Nat} (h : f.indexOfId? id = some i) :
    ∃ t, f.get? i = some t := by
  obtain ⟨hi, -⟩ := Array.findIdx?_eq_some_iff_getElem.mp h
  exact ⟨_, Array.getElem?_eq_getElem hi⟩

/-- A name has a type if and only if it has an index. -/
theorem exists_indexOfName?_iff {name : String} :
    (∃ i, f.indexOfName? name = some i) ↔ (f.withName? name).isSome := by
  rw [← Option.isSome_iff_exists]
  unfold indexOfName? withName?
  rw [Array.findIdx?_isSome, Array.find?_isSome, Array.any_eq_true']

/-- A type found by its name has a place in the forest. -/
theorem lt_of_indexOfName? {name : String} {i : Nat} (h : f.indexOfName? name = some i) :
    i < f.types.size :=
  (Array.findIdx?_eq_some_iff_getElem.mp h).1

/-- It is in the forest and has this name. -/
theorem get?_of_indexOfName? {name : String} {i : Nat} (h : f.indexOfName? name = some i) :
    ∃ t, f.get? i = some t ∧ t.name = name := by
  obtain ⟨hi, heq, -⟩ := Array.findIdx?_eq_some_iff_getElem.mp h
  exact ⟨_, Array.getElem?_eq_getElem hi, beq_iff_eq.mp heq⟩

/-- Only one name has an index. -/
theorem name_eq_of_indexOfName? {name name' : String} {i : Nat}
    (h : f.indexOfName? name = some i) (h' : f.indexOfName? name' = some i) : name = name' := by
  obtain ⟨t, ht, rfl⟩ := get?_of_indexOfName? h
  obtain ⟨t', ht', rfl⟩ := get?_of_indexOfName? h'
  rw [Option.some.inj (ht.symm.trans ht')]

/-- The index of a name is that of the type which bears it. -/
theorem Sound.indexOfName?_eq (hf : f.Sound) {i : Nat} {t : EquipmentType}
    (h : f.get? i = some t) : f.indexOfName? t.name = some i := by
  obtain ⟨hi, rfl⟩ := Array.getElem?_eq_some_iff.mp h
  refine Array.findIdx?_eq_some_iff_getElem.mpr ⟨hi, beq_self_eq_true _, fun j hj hname => ?_⟩
  have hsize : (f.types.toList.map (·.name)).length = f.types.size := by simp
  have hne := List.pairwise_iff_getElem.mp hf.names_nodup j i (by omega) (by omega) hj
  simp only [List.getElem_map, Array.getElem_toList] at hne
  exact hne (beq_iff_eq.mp hname)

end Forest

end LicenseForecast
