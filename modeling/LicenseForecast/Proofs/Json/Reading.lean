import LicenseForecast.Document.Attribute
import LicenseForecast.Proofs.Dictionary
import LicenseForecast.Proofs.Json.Writing
import LicenseForecast.Proofs.Outcome

namespace LicenseForecast

/-!
# Sound documents and their readers

What a reader gives for the tree of a document whose parts it reads: a list of all items, a
dictionary of all entries, and a record with every field set that the document holds.  The fields of
a record stand in the order of its description, and those that it does not need may be left out
(`Reader.Fills`), so the record is read field by field (`Reader.record_of_fills`).
-/

open Node (ofJson)

/-! ### Getting past a document -/

namespace Node

mutual
/-- A document has no flaws. -/
theorem pass_ofJson (strict : Bool) : ∀ j, pass strict (ofJson j) = .ok ()
  | .null => rfl
  | .bool _ => rfl
  | .number _ => by cases strict <;> rfl
  | .text _ => by cases strict <;> rfl
  | .array items => by
    rw [ofJson, pass, passItems_ofItems]
    rfl
  | .object fields => by
    rw [ofJson, pass, passFields_ofFields]
    rfl

/-- So can items. -/
theorem passItems_ofItems (strict : Bool) : ∀ items, passItems strict (ofItems items) = .ok ()
  | [] => rfl
  | item :: rest => by
    rw [ofItems, passItems, pass_ofJson, passItems_ofItems]
    rfl

/-- So can fields, whatever they are called. -/
theorem passFields_ofFields (strict : Bool) :
    ∀ fields, passFields strict (ofFields fields) = .ok ()
  | [] => rfl
  | (name, value) :: rest => by
    rw [ofFields, passFields, pass_ofJson, passFields_ofFields]
    cases strict <;> rfl
end

end Node

namespace Reader

variable {α : Type}

/-! ### Numbers, lists, dictionaries and optional values -/

/-- An integer is read back if it lies within the bounds. -/
theorem integer_ofJson {low high n : Int} (h : low ≤ n ∧ n ≤ high) :
    integer low high (ofJson (.int n)) = .ok n :=
  if_pos h

/-- A natural number is read back if it is not above the bound. -/
theorem natural_ofJson {high n : Nat} (h : n ≤ high) :
    natural high (ofJson (.nat n)) = .ok n := by
  have hread : integer 0 high (ofJson (.nat n)) = .ok n := integer_ofJson (by omega)
  unfold natural
  rw [hread]
  rfl

/-- A list is read item by item. -/
theorem list_ofJson {reader : Reader α} {json : α → Json} {l : List α}
    (h : ∀ a ∈ l, reader (ofJson (json a)) = .ok a) :
    list reader (ofJson (.array (l.map json))) = .ok l := by
  have hitems : (Node.ofItems (l.map json)).mapM reader = .ok l := by
    rw [Node.ofItems_eq, mapM_eq_ok, List.map_map, List.map_map]
    exact List.map_congr_left h
  rw [ofJson, list, hitems]
  rfl

/-- Texts are read back in order. -/
theorem texts_ofJson (l : List String) : list text (ofJson (.texts l)) = .ok l :=
  list_ofJson fun _ _ => rfl

/-- A value that may be missing. -/
theorem optional_ofJson {reader : Reader α} {j : Json} {a : α} (hne : ofJson j ≠ .null)
    (h : reader (ofJson j) = .ok a) : optional reader (ofJson j) = .ok (some a) := by
  unfold optional
  split
  next heq => exact absurd heq hne
  next => rw [h]; rfl

/-- A dictionary is read entry by entry. -/
theorem dictionary_ofJson {reader : Reader α} {json : α → Json} {d : Dictionary α}
    (h : ∀ a ∈ d.values, reader (ofJson (json a)) = .ok a) :
    dictionary reader (ofJson (d.json json)) = .ok d := by
  have hentries : entries reader
      (Node.ofFields (d.entries.map fun entry => (entry.1, json entry.2))) = .ok d.entries := by
    unfold entries
    rw [Node.ofFields_eq, mapM_eq_ok, List.map_map, List.map_map]
    refine List.map_congr_left fun entry hentry => ?_
    show (reader (ofJson (json entry.2)) >>= fun value => Except.ok (entry.1, value)) = _
    rw [h entry.2 (List.mem_map_of_mem hentry)]
    rfl
  rw [Dictionary.json, ofJson, dictionary, hentries]
  exact congrArg Except.ok d.ofList_entries

/-! ### Records -/

/-- Some fields of a document are those of a description, in its order, and turn one record into
    another.  Fields that are not needed may be left out. -/
inductive Fills : List (Field α) → List (String × Json) → α → α → Prop
  | nil {a : α} : Fills [] [] a a
  | set {field : Field α} {spec : List (Field α)} {j : Json} {fields : List (String × Json)}
      {a b c : α} (read : field.set (ofJson j) a = .ok b) (rest : Fills spec fields b c) :
      Fills (field :: spec) ((field.name, j) :: fields) a c
  | left {field : Field α} {spec : List (Field α)} {fields : List (String × Json)} {a c : α}
      (unneeded : field.required = false) (rest : Fills spec fields a c) :
      Fills (field :: spec) fields a c

namespace Fills

variable {β : Type} {name : String} {reader : Reader β} {j : Json} {v : β} {spec : List (Field α)}
  {fields : List (String × Json)} {a c : α}

/-- A value that is written. -/
theorem field {required : Bool} {set : β → α → α} (read : reader (ofJson j) = .ok v)
    (rest : Fills spec fields (set v a) c) :
    Fills (⟨name, required, fun node a => return set (← reader node) a⟩ :: spec)
      ((name, j) :: fields) a c := by
  refine .set ?_ rest
  show (reader (ofJson j) >>= fun v => Except.ok (set v a)) = _
  rw [read]
  rfl

/-- A value that is only written if there is one. -/
theorem optional {set : Option β → α → α} {o : Option β} {json : β → Json}
    (read : ∀ v ∈ o, ofJson (json v) ≠ .null ∧ reader (ofJson (json v)) = .ok v)
    (blank : o = none → set none a = a) (rest : Fills spec fields (set o a) c) :
    Fills (Reader.defaulted name (Reader.optional reader) set :: spec)
      (Json.optionalField name (o.map json) ++ fields) a c := by
  cases o with
  | none =>
    rw [blank rfl] at rest
    exact .left rfl rest
  | some v =>
    obtain ⟨hne, hread⟩ := read v rfl
    exact .field (optional_ofJson hne hread) rest

end Fills

/-- The fields of a document are read one by one, and those that the record needs are met. -/
theorem byName_of_fills {spec before after : List (Field α)}
    {fields : List (String × Json)} {a c : α} {seen : List String}
    (hnodup : (spec.map (·.name)).Nodup) (hspec : spec = before ++ after)
    (hseen : ∀ name ∈ seen, name ∈ before.map (·.name)) (h : Fills after fields a c) :
    ∃ met, byName spec seen a (Node.ofFields fields) = .ok (met, c) ∧ (∀ name ∈ seen, name ∈ met) ∧
      ∀ field ∈ after, field.required = true → field.name ∈ met := by
  induction h generalizing before seen with
  | nil => exact ⟨seen, rfl, fun _ h => h, nofun⟩
  | @set field after j fields a b c read rest ih =>
    -- fields do not repeat, so the one that is looked up is this one and it was not met before
    have hnew : field.name ∉ before.map (·.name) := by
      rw [hspec, List.map_append, List.map_cons] at hnodup
      exact fun hmem => (List.nodup_append.mp hnodup).2.2 _ hmem _ List.mem_cons_self rfl
    have hfind : spec.find? (·.name == field.name) = some field := by
      have hbefore : before.find? (·.name == field.name) = none := by
        simpa using hnew
      rw [hspec, List.find?_append, hbefore, Option.none_or]
      exact List.find?_cons_of_pos (beq_self_eq_true _)
    have hunseen : seen.contains field.name = false := by
      simpa using fun hmem => hnew (hseen _ hmem)
    have hstep : byName spec seen a (Node.ofFields ((field.name, j) :: fields))
        = byName spec (field.name :: seen) b (Node.ofFields fields) := by
      simp only [Node.ofFields, byName, Lexeme.read, bind, Except.bind, hfind, hunseen, read]
      rfl
    have hspec' : spec = (before ++ [field]) ++ after := by simp [hspec]
    have hseen' : ∀ name ∈ field.name :: seen, name ∈ (before ++ [field]).map (·.name) := by
      simp only [List.mem_cons, List.map_append, List.map_singleton, List.mem_append]
      rintro name (rfl | hname)
      · exact .inr (.inl rfl)
      · exact .inl (hseen name hname)
    -- the rest is read with this field among those met
    obtain ⟨met, hread, hkept, hneeded⟩ := ih hspec' hseen'
    refine ⟨met, hstep.trans hread, fun name hname => hkept name (List.mem_cons_of_mem _ hname),
      fun other hother hrequired => ?_⟩
    rcases List.mem_cons.mp hother with rfl | hother
    · exact hkept _ List.mem_cons_self
    · exact hneeded other hother hrequired
  | @left field after fields a c unneeded rest ih =>
    -- a field left out of the text must not be required
    have hspec' : spec = (before ++ [field]) ++ after := by simp [hspec]
    have hseen' : ∀ name ∈ seen, name ∈ (before ++ [field]).map (·.name) := by
      intro name hname
      rw [List.map_append]
      exact List.mem_append_left _ (hseen name hname)
    obtain ⟨met, hread, hkept, hneeded⟩ := ih hspec' hseen'
    refine ⟨met, hread, hkept, fun other hother hrequired => ?_⟩
    rcases List.mem_cons.mp hother with rfl | hother
    · rw [unneeded] at hrequired
      cases hrequired
    · exact hneeded other hother hrequired

/-- **A record is read field by field.** -/
theorem record_of_fills {spec : List (Field α)} (hnodup : (spec.map (·.name)).Nodup)
    {fields : List (String × Json)} {blank a : α} (h : Fills spec fields blank a) :
    record blank spec (ofJson (.object fields)) = .ok a := by
  have hnone : ∀ name ∈ ([] : List String), name ∈ ([] : List (Field α)).map (·.name) := by simp
  obtain ⟨met, hread, -, hneeded⟩ := byName_of_fills hnodup (List.nil_append spec).symm hnone h
  have hcomplete : (spec.any fun field => field.required && !met.contains field.name) = false := by
    rw [List.any_eq_false]
    intro field hfield
    simpa using hneeded field hfield
  rw [ofJson, record, hread]
  show (if _ then _ else _) = _
  rw [hcomplete]
  rfl

/-- **A document is read from its texts** as it is read from its tree. -/
theorem ofText_written {reader : Reader α} {j : Json} {a : α} {depth : Nat} (h : j.Portable depth)
    (hdepth : depth ≤ Node.maxOuter + 1) (hread : reader (ofJson j) = .ok a) :
    reader.ofText j.pretty = .ok a ∧ reader.ofText j.compact = .ok a := by
  have htext : ∀ text, Node.ofText text = (ofJson j, false) → reader.ofText text = .ok a := by
    intro text htree
    unfold ofText
    rw [htree]
    show (reader (ofJson j) >>= fun value => Except.ok value) = .ok a
    rw [hread]
    rfl
  obtain ⟨hcompact, hpretty⟩ := h.ofText_written hdepth
  exact ⟨htext _ hpretty, htext _ hcompact⟩

end Reader

end LicenseForecast
