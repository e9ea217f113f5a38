import LicenseForecast.Dictionary
import Mathlib.Algebra.BigOperators.Group.Finset.Basic
import Mathlib.Algebra.Order.BigOperators.Group.List
import Mathlib.Algebra.Order.Ring.Nat

namespace LicenseForecast.Dictionary

/-!
# What is under the keys of a dictionary

Keys ascend, so a dictionary is nothing but what is under its keys (`ext_get?`).  An insertion
changes one key (`get?_insert`) and, in a sum over the values, one summand (`sum_insert`).  Such a
sum is one over the keys (`sum_values`).
-/

variable {α : Type}

/-- A smaller key is another key. -/
private theorem ne_of_lt {a b : String} (h : a < b) : a ≠ b := by
  rintro rfl
  exact String.lt_irrefl a h

/-! ### Entries and keys -/

/-- In entries with ascending keys a key is found with its value exactly if this pair is among
    them. -/
private theorem find?_eq_some_iff {key : String} {value : α} :
    ∀ {entries : List (String × α)}, entries.Pairwise (·.1 < ·.1) →
      ((entries.find? (·.1 == key)).map (·.2) = some value ↔ (key, value) ∈ entries)
  | [], _ => by simp
  | e :: rest, h => by
    have hrest := List.pairwise_cons.1 h
    by_cases hkey : e.1 = key
    -- keys do not repeat, so the first entry with the key is the only one
    · have hnot : (key, value) ∉ rest := by
        intro hmem
        exact ne_of_lt (hrest.1 _ hmem) hkey
      subst hkey
      simp only [List.find?_cons, beq_self_eq_true, Option.map_some, Option.some.injEq,
        List.mem_cons, hnot, or_false]
      constructor
      · rintro rfl
        rfl
      · intro heq
        rw [← heq]
    · have hne : (e.1 == key) = false := beq_false_of_ne hkey
      rw [List.find?_cons, hne, find?_eq_some_iff hrest.2, List.mem_cons]
      constructor
      · exact .inr
      · rintro (rfl | hmem)
        · exact absurd rfl hkey
        · exact hmem

/-- An entry is what is found under its key. -/
theorem get?_eq_some_iff {d : Dictionary α} {key : String} {value : α} :
    d.get? key = some value ↔ (key, value) ∈ d.entries :=
  find?_eq_some_iff d.ascending

/-- **A dictionary is what is under its keys.** -/
theorem ext_get? {d d' : Dictionary α} (h : ∀ key, d.get? key = d'.get? key) : d = d' := by
  have hmem : ∀ entry, entry ∈ d.entries ↔ entry ∈ d'.entries := by
    rintro ⟨key, value⟩
    rw [← get?_eq_some_iff, ← get?_eq_some_iff, h]
  have hnodup : ∀ d : Dictionary α, d.entries.Nodup := fun d =>
    d.ascending.imp fun hlt heq => ne_of_lt hlt (congrArg Prod.fst heq)
  have hentries : d.entries = d'.entries := by
    refine List.Perm.eq_of_pairwise (fun a b _ _ hab hba => ?_) d.ascending d'.ascending
      ((List.perm_ext_iff_of_nodup (hnodup d) (hnodup d')).mpr hmem)
    exact absurd (String.lt_trans hab hba) (String.lt_irrefl _)
  obtain ⟨entries, ascending⟩ := d
  cases hentries
  rfl

theorem get?_empty (key : String) : (empty : Dictionary α).get? key = none := rfl

/-! ### Insertion -/

/-- After an insertion there are the new entry and those with other keys. -/
private theorem mem_insertEntry {key : String} {value : α} {entry : String × α} :
    ∀ {entries : List (String × α)}, entries.Pairwise (·.1 < ·.1) →
      (entry ∈ insertEntry key value entries ↔
        entry = (key, value) ∨ entry.1 ≠ key ∧ entry ∈ entries)
  | [], _ => by simp [insertEntry]
  | e :: rest, h => by
    have hrest := List.pairwise_cons.1 h
    unfold insertEntry
    by_cases hlt : key < e.1
    · -- every key from here on is greater than the new one
      have hne : ∀ entry ∈ e :: rest, entry.1 ≠ key := by
        intro entry hmem
        rcases List.mem_cons.1 hmem with rfl | hmem
        · exact (ne_of_lt hlt).symm
        · exact (ne_of_lt (String.lt_trans hlt (hrest.1 _ hmem))).symm
      rw [if_pos hlt, List.mem_cons]
      exact or_congr_right ⟨fun hmem => ⟨hne _ hmem, hmem⟩, And.right⟩
    · rw [if_neg hlt]
      by_cases heq : key = e.1
      · rw [if_pos heq, List.mem_cons]
        -- an entry of the same key is exchanged, the others stay
        refine or_congr_right ⟨fun hmem => ⟨?_, List.mem_cons_of_mem _ hmem⟩, ?_⟩
        · rw [heq]
          exact (ne_of_lt (hrest.1 _ hmem)).symm
        · rintro ⟨hne, hmem⟩
          rcases List.mem_cons.1 hmem with rfl | hmem
          · exact absurd heq.symm hne
          · exact hmem
      · rw [if_neg heq, List.mem_cons, mem_insertEntry hrest.2, List.mem_cons]
        constructor
        · rintro (rfl | hnew | ⟨hne, hmem⟩)
          · exact .inr ⟨fun h => heq h.symm, .inl rfl⟩
          · exact .inl hnew
          · exact .inr ⟨hne, .inr hmem⟩
        · rintro (hnew | ⟨hne, rfl | hmem⟩)
          · exact .inr (.inl hnew)
          · exact .inl rfl
          · exact .inr (.inr ⟨hne, hmem⟩)

/-- What an insertion leaves of a dictionary is what has other keys. -/
theorem mem_entries_insert {d : Dictionary α} {key : String} {value : α} {entry : String × α} :
    entry ∈ (d.insert key value).entries ↔
      entry = (key, value) ∨ entry.1 ≠ key ∧ entry ∈ d.entries :=
  mem_insertEntry d.ascending

/-- An inserted value is found under its key. -/
theorem get?_insert_self (d : Dictionary α) (key : String) (value : α) :
    (d.insert key value).get? key = some value :=
  get?_eq_some_iff.mpr (mem_entries_insert.mpr (.inl rfl))

/-- An insertion leaves other keys alone. -/
theorem get?_insert_of_ne {d : Dictionary α} {key key' : String} {value : α} (h : key' ≠ key) :
    (d.insert key value).get? key' = d.get? key' := by
  have hsome : ∀ v, (d.insert key value).get? key' = some v ↔ d.get? key' = some v := by
    intro v
    rw [get?_eq_some_iff, get?_eq_some_iff, mem_entries_insert]
    constructor
    · rintro (heq | ⟨-, hmem⟩)
      · exact absurd (congrArg Prod.fst heq) h
      · exact hmem
    · exact fun hmem => .inr ⟨h, hmem⟩
  exact Option.ext hsome

/-- Several insertions, of which the entries inserted are found first. -/
theorem get?_foldl_insert {β : Type} (g : β → α) (key : String) :
    ∀ {entries : List (String × β)} (d : Dictionary α), entries.Pairwise (·.1 < ·.1) →
      (entries.foldl (fun d entry => d.insert entry.1 (g entry.2)) d).get? key
        = ((entries.find? (·.1 == key)).map (g ·.2)).or (d.get? key)
  | [], _, _ => rfl
  | e :: rest, d, h => by
    have hrest := List.pairwise_cons.1 h
    rw [List.foldl_cons, get?_foldl_insert g key _ hrest.2, List.find?_cons]
    by_cases hkey : e.1 = key
    · -- the same key does not come again
      have hnone : rest.find? (·.1 == key) = none := by
        rw [List.find?_eq_none]
        intro e' he' heq
        exact ne_of_lt (hrest.1 e' he') (hkey.trans (beq_iff_eq.mp heq).symm)
      subst hkey
      rw [hnone, get?_insert_self]
      simp
    · have hne : (e.1 == key) = false := beq_false_of_ne hkey
      rw [hne, get?_insert_of_ne (Ne.symm hkey)]

/-- The entries of a dictionary make up that dictionary. -/
theorem ofList_entries (d : Dictionary α) : ofList d.entries = d := by
  refine ext_get? fun key => ?_
  have hget := get?_foldl_insert id key empty d.ascending
  rw [get?_empty, Option.or_none] at hget
  exact hget

/-- A dictionary has no other values than those that it is made of. -/
theorem exists_mem_of_mem_ofList {entries : List (String × α)} {value : α}
    (h : value ∈ (ofList entries).values) : ∃ entry ∈ entries, entry.2 = value := by
  have hfold : ∀ (entries : List (String × α)) (d : Dictionary α) (entry : String × α),
      entry ∈ (entries.foldl (fun d entry => d.insert entry.1 entry.2) d).entries →
        entry ∈ entries ∨ entry ∈ d.entries := by
    intro entries
    -- the induction runs over the insertions, so the dictionary at their start is generalised
    induction entries with
    | nil => exact fun _ _ hmem => .inr hmem
    | cons e entries ih =>
      intro d entry hmem
      rcases ih _ entry hmem with hmem | hmem
      · exact .inl (List.mem_cons_of_mem _ hmem)
      · rcases mem_entries_insert.mp hmem with rfl | ⟨-, hmem⟩
        · exact .inl List.mem_cons_self
        · exact .inr hmem
  obtain ⟨entry, hentry, rfl⟩ := List.mem_map.mp h
  rcases hfold entries empty entry hentry with hmem | hmem
  · exact ⟨entry, hmem, rfl⟩
  · cases hmem

/-- Values are mapped one by one, each under its key. -/
theorem get?_mapValues {β : Type} (f : String → α → β) (d : Dictionary α) (key : String) :
    (d.mapValues f).get? key = (d.get? key).map (f key) := by
  unfold get? mapValues
  rw [List.find?_map, Option.map_map, Option.map_map]
  show ((d.entries.find? (·.1 == key)).map fun entry => f entry.1 entry.2) = _
  cases hfind : d.entries.find? (·.1 == key) with
  | none => rfl
  | some entry =>
    have hkey := List.find?_some hfind
    rw [Option.map_some, Option.map_some, beq_iff_eq.mp hkey]
    rfl

/-! ### Keys -/

/-- The keys are what something stands under. -/
theorem mem_keys_iff {d : Dictionary α} {key : String} : key ∈ d.keys ↔ (d.get? key).isSome := by
  rw [Option.isSome_iff_exists]
  simp only [get?_eq_some_iff, keys, List.mem_map, Prod.exists, exists_and_right, exists_eq_right]

/-- The keys are known by what is under them. -/
theorem keys_congr {d d' : Dictionary α} (h : ∀ key, (d.get? key).isSome = (d'.get? key).isSome) :
    d.keys = d'.keys := by
  have hkeys : ∀ d : Dictionary α, (d.mapValues fun _ _ => ()).keys = d.keys := fun d =>
    List.map_map
  have hunit : (d.mapValues fun _ _ => ()) = d'.mapValues fun _ _ => () := by
    refine ext_get? fun key => ?_
    have hkey := h key
    rw [get?_mapValues, get?_mapValues]
    cases hd : d.get? key <;> cases hd' : d'.get? key <;> simp_all
  rw [← hkeys d, hunit, hkeys d']

/-- No key occurs twice. -/
theorem nodup_keys (d : Dictionary α) : d.keys.Nodup :=
  List.pairwise_map.mpr (d.ascending.imp ne_of_lt)

/-! ### Sums over the values -/

/-- A sum over the values is a sum over the keys. -/
theorem sum_values {d : Dictionary α} {g : α → Nat} {f : String → Nat}
    (h : ∀ key value, d.get? key = some value → g value = f key) :
    (d.values.map g).sum = ∑ key ∈ d.keys.toFinset, f key := by
  rw [List.sum_toFinset _ d.nodup_keys, keys, values, List.map_map, List.map_map]
  refine congrArg List.sum (List.map_congr_left fun entry hentry => ?_)
  exact h entry.1 entry.2 (get?_eq_some_iff.mpr hentry)

/-- An insertion exchanges one summand for another. -/
private theorem sum_insertEntry (g : α → Nat) {key : String} {old : α} (new : α) :
    ∀ {entries : List (String × α)}, entries.Pairwise (·.1 < ·.1) → (key, old) ∈ entries →
      ((insertEntry key new entries).map (g ·.2)).sum + g old
        = (entries.map (g ·.2)).sum + g new
  | [], _, hmem => by cases hmem
  | e :: rest, h, hmem => by
    have hrest := List.pairwise_cons.1 h
    unfold insertEntry
    rcases List.mem_cons.1 hmem with rfl | hmem
    · rw [if_neg (String.lt_irrefl key), if_pos rfl]
      simp only [List.map_cons, List.sum_cons]
      omega
    -- the key comes further back, so this entry is left alone
    · have hlt : e.1 < key := hrest.1 _ hmem
      have hge : ¬ key < e.1 := fun hgt => String.lt_irrefl _ (String.lt_trans hlt hgt)
      rw [if_neg hge, if_neg (ne_of_lt hlt).symm]
      have ih := sum_insertEntry g new hrest.2 hmem
      simp only [List.map_cons, List.sum_cons]
      omega

/-- **An insertion exchanges one summand.** -/
theorem sum_insert (g : α → Nat) {d : Dictionary α} {key : String} {old : α} (new : α)
    (h : d.get? key = some old) :
    ((d.insert key new).values.map g).sum + g old = (d.values.map g).sum + g new := by
  unfold values
  rw [List.map_map, List.map_map]
  exact sum_insertEntry g new d.ascending (get?_eq_some_iff.mp h)

/-- A value is at most the sum of all. -/
theorem le_sum (g : α → Nat) {d : Dictionary α} {key : String} {value : α}
    (h : d.get? key = some value) : g value ≤ (d.values.map g).sum := by
  have hmem : value ∈ d.values := List.mem_map.mpr ⟨_, get?_eq_some_iff.mp h, rfl⟩
  exact List.single_le_sum (fun _ _ => Nat.zero_le _) _ (List.mem_map_of_mem hmem)

end LicenseForecast.Dictionary
