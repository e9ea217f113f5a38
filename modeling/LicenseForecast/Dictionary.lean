namespace LicenseForecast

/-!
# Dictionaries — values under text keys, in key order

Every key appears once, and the keys ascend in the order of their characters (which is the order
of their UTF-8 bytes), so two dictionaries with the same contents are equal.
-/

/-- Values under ascending keys. -/
structure Dictionary (α : Type) where
  entries : List (String × α)
  ascending : entries.Pairwise (·.1 < ·.1) := by simp

namespace Dictionary

variable {α β : Type}

/-- Nothing under any key. -/
def empty : Dictionary α := ⟨[], List.Pairwise.nil⟩

instance : Inhabited (Dictionary α) := ⟨empty⟩

/-- The entries with one more, which replaces an entry of the same key. -/
def insertEntry (key : String) (value : α) : List (String × α) → List (String × α)
  | [] => [(key, value)]
  | entry :: rest =>
    if key < entry.1 then (key, value) :: entry :: rest
    else if key = entry.1 then (key, value) :: rest
    else entry :: insertEntry key value rest

/-- An insertion adds no other key. -/
theorem key_of_mem_insertEntry {key : String} {value : α} {entry : String × α} :
    ∀ {entries : List (String × α)}, entry ∈ insertEntry key value entries →
      entry.1 = key ∨ entry ∈ entries
  | [], h => by simp [insertEntry] at h; exact .inl (by simp [h])
  | e :: rest, h => by
    unfold insertEntry at h
    split at h
    · rcases List.mem_cons.1 h with rfl | h
      · exact .inl rfl
      · exact .inr h
    -- the entry is exchanged, or the new one comes further back
    · split at h
      · rcases List.mem_cons.1 h with rfl | h
        · exact .inl rfl
        · exact .inr (List.mem_cons_of_mem _ h)
      · rcases List.mem_cons.1 h with rfl | h
        · exact .inr List.mem_cons_self
        · exact (key_of_mem_insertEntry h).imp_right (List.mem_cons_of_mem _)

/-- An insertion keeps keys in ascending order. -/
theorem ascending_insertEntry (key : String) (value : α) :
    ∀ {entries : List (String × α)}, entries.Pairwise (·.1 < ·.1) →
      (insertEntry key value entries).Pairwise (·.1 < ·.1)
  | [], _ => by simp [insertEntry]
  | e :: rest, h => by
    have hrest := List.pairwise_cons.1 h
    unfold insertEntry
    split
    · rename_i hlt
      refine List.pairwise_cons.2 ⟨fun e' he' => ?_, h⟩
      rcases List.mem_cons.1 he' with rfl | he'
      · exact hlt
      · exact String.lt_trans hlt (hrest.1 e' he')
    -- the keys are equal, and the new entry takes the place of the old one
    · rename_i hlt
      split
      · rename_i heq
        subst heq
        exact List.pairwise_cons.2 hrest
      -- the new entry comes further back, behind a smaller key
      · rename_i hne
        refine List.pairwise_cons.2 ⟨fun e' he' => ?_, ascending_insertEntry key value hrest.2⟩
        rcases key_of_mem_insertEntry he' with heq | he'
        · rw [heq]
          refine Classical.byContradiction fun hge => hne ?_
          exact String.le_antisymm (String.not_lt.1 hge) (String.not_lt.1 hlt)
        · exact hrest.1 e' he'

/-- The dictionary with one more entry, which replaces an entry of the same key. -/
def insert (d : Dictionary α) (key : String) (value : α) : Dictionary α :=
  ⟨insertEntry key value d.entries, ascending_insertEntry key value d.ascending⟩

/-- The dictionary of some entries.  Of two entries of the same key the later one counts. -/
def ofList (entries : List (String × α)) : Dictionary α :=
  entries.foldl (fun d entry => d.insert entry.1 entry.2) empty

/-- The value under a key. -/
def get? (d : Dictionary α) (key : String) : Option α :=
  (d.entries.find? (·.1 == key)).map (·.2)

/-- The keys, in order. -/
def keys (d : Dictionary α) : List String := d.entries.map (·.1)

/-- The values, in the order of their keys. -/
def values (d : Dictionary α) : List α := d.entries.map (·.2)

/-- The number of keys. -/
def size (d : Dictionary α) : Nat := d.entries.length

/-- Another value under each key. -/
def mapValues (f : String → α → β) (d : Dictionary α) : Dictionary β where
  entries := d.entries.map fun entry => (entry.1, f entry.1 entry.2)
  ascending := List.pairwise_map.2 (d.ascending.imp fun h => h)

end Dictionary

end LicenseForecast
