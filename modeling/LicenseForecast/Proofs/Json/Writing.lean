import LicenseForecast.Json.Node
import LicenseForecast.Proofs.Json.Spelling
import Mathlib.Data.List.Forall2

namespace LicenseForecast

/-!
# Documents are read back as they were written

A document can be carried by a text if its numbers are kept and its lists and objects are not
nested too deeply (`Json.Portable`).  Then the text is cut into the tokens of the document
(`Json.tokens`), however it is laid out, and the tokens are put together to the tree of the
document.

* `Json.Portable.spells_compact`, `Json.Portable.spells_prettyAt` — both layouts spell the same
  tokens;
* `Json.Portable.readAs` — the tokens are those of the tree, wherever it stands;
* `Json.Portable.ofText_written` — so the whole text is read back.
-/

namespace Json

open Decimal (signedMin signedMax unsignedMax)

/-! ### The tokens of a document -/

mutual
/-- The tokens of a document. -/
def tokens : Json → List Token
  | .null => [.null]
  | .bool b => [.bool b]
  | .number n => [.number (.whole n)]
  | .text s => [.text (.whole s)]
  | .array items => .openArray :: ([Token.comma].intercalate (itemTokens items) ++ [.closeArray])
  | .object fields =>
    .openObject :: ([Token.comma].intercalate (fieldTokens fields) ++ [.closeObject])

/-- The tokens of the items of a list. -/
def itemTokens : List Json → List (List Token)
  | [] => []
  | item :: rest => item.tokens :: itemTokens rest

/-- The tokens of the fields of an object. -/
def fieldTokens : List (String × Json) → List (List Token)
  | [] => []
  | (name, value) :: rest =>
    (.text (.whole name) :: .colon :: value.tokens) :: fieldTokens rest
end

/-! ### Documents that a text can carry -/

/-- A document that a text can carry: all its numbers are kept, and its lists and objects are nested
    at most `depth` deep. -/
inductive Portable : Nat → Json → Prop
  | null {depth : Nat} : Portable depth .null
  | bool {depth : Nat} (b : Bool) : Portable depth (.bool b)
  | number {depth : Nat} {n : Number} (kept : n.IsKept) : Portable depth (.number n)
  | text {depth : Nat} (s : String) : Portable depth (.text s)
  | array {depth : Nat} {items : List Json} (inner : ∀ item ∈ items, Portable depth item) :
      Portable (depth + 1) (.array items)
  | object {depth : Nat} {fields : List (String × Json)}
      (inner : ∀ field ∈ fields, Portable depth field.2) : Portable (depth + 1) (.object fields)

attribute [simp] Portable.bool Portable.text

/-- An integer can be carried if 64 bits with a sign hold it. -/
theorem portable_int {depth : Nat} {n : Int} (hlow : signedMin ≤ n) (hhigh : n ≤ signedMax) :
    Portable depth (.int n) := by
  have hmax : (signedMax : Int) ≤ unsignedMax := by decide
  exact .number (Number.isKept_whole hlow (Int.le_trans hhigh hmax))

/-- A list of texts can be carried. -/
theorem portable_texts (l : List String) (depth : Nat) : Portable (depth + 1) (.texts l) :=
  .array (List.forall_mem_map.mpr fun s _ => .text s)

/-- A field that may be left out can be carried if its value can. -/
theorem portable_optionalField {α : Type} {depth : Nat} {name : String} {json : α → Json}
    {o : Option α} (h : ∀ a ∈ o, Portable depth (json a)) :
    ∀ field ∈ optionalField name (o.map json), Portable depth field.2 := by
  cases o with
  | none => nofun
  | some a => simpa [optionalField] using h a rfl

end Json

/-! ### Lists and objects in a text -/

namespace Token

/-- All characters are blank. -/
def Blank (cs : List Char) : Prop := ∀ c ∈ cs, isBlank c = true

theorem blank_nil : Blank [] := fun _ h => absurd h List.not_mem_nil

/-- What is blank or ends a list or an object ends a number. -/
private theorem delimited_closing {blanks : List Char} {closing : Char} (rest : List Char)
    (hblank : Blank blanks) (hclosing : closing = ']' ∨ closing = '}') :
    Delimited (blanks ++ closing :: rest) := by
  cases blanks with
  | nil => rcases hclosing with rfl | rfl <;> exact delimited_cons (by decide)
  | cons c blanks => exact delimited_of_isBlank (hblank c List.mem_cons_self)

/-- Parts with commas and blanks between them. -/
theorem spells_intercalate {blanks : List Char} (hblank : Blank blanks)
    {parts : List (List Char)} {tokens : List (List Token)} (h : List.Forall₂ Spells parts tokens) :
    Spells ((',' :: blanks).intercalate parts) ([Token.comma].intercalate tokens) := by
  induction h with
  | nil => exact fun rest _ => rfl
  | @cons part token parts tokens hpart hparts ih =>
    intro rest hrest
    cases hparts with
    | nil => simpa using hpart rest hrest
    | cons hnext hparts =>
      simp only [List.intercalate_cons_cons, List.append_assoc, List.cons_append]
      rw [hpart _ (delimited_cons (by decide)), ofChars_comma, ofChars_blanks hblank, ih rest hrest]
      rfl

/-- Parts with commas between them, blanks in front of each and at the end, and brackets around. -/
private theorem spells_block {opening closing : Char} {start finish : Token}
    {blanks last : List Char} (hopening : ∀ cs, ofChars (opening :: cs) = start :: ofChars cs)
    (hclosing : ∀ cs, ofChars (closing :: cs) = finish :: ofChars cs)
    (hbracket : closing = ']' ∨ closing = '}') (hblank : Blank blanks)
    (hlast : Blank last) {parts : List (List Char)} {tokens : List (List Token)}
    (h : List.Forall₂ Spells parts tokens) :
    Spells (opening :: (blanks ++ (',' :: blanks).intercalate parts ++ (last ++ [closing])))
      (start :: ([Token.comma].intercalate tokens ++ [finish])) := by
  intro rest _
  have hend := delimited_closing rest hlast hbracket
  simp only [List.cons_append, List.append_assoc, List.nil_append]
  rw [hopening, ofChars_blanks hblank, spells_intercalate hblank h _ hend, ofChars_blanks hlast,
    hclosing]

/-- A list. -/
theorem spells_array {blanks last : List Char} (hblank : Blank blanks)
    (hlast : Blank last) {items : List (List Char)} {tokens : List (List Token)}
    (h : List.Forall₂ Spells items tokens) :
    Spells ('[' :: (blanks ++ (',' :: blanks).intercalate items ++ (last ++ [']'])))
      (.openArray :: ([Token.comma].intercalate tokens ++ [.closeArray])) :=
  spells_block (fun _ => ofChars_cons rfl rfl) (fun _ => ofChars_cons rfl rfl) (.inl rfl) hblank
    hlast h

/-- An object. -/
theorem spells_object {blanks last : List Char} (hblank : Blank blanks)
    (hlast : Blank last) {fields : List (List Char)} {tokens : List (List Token)}
    (h : List.Forall₂ Spells fields tokens) :
    Spells ('{' :: (blanks ++ (',' :: blanks).intercalate fields ++ (last ++ ['}'])))
      (.openObject :: ([Token.comma].intercalate tokens ++ [.closeObject])) :=
  spells_block (fun _ => ofChars_cons rfl rfl) (fun _ => ofChars_cons rfl rfl) (.inr rfl) hblank
    hlast h

/-- A field of an object. -/
theorem spells_field {blanks value : List Char} (hblank : Blank blanks)
    (name : String) {tokens : List Token} (h : Spells value tokens) :
    Spells ((Json.quoted name).toList ++ (':' :: (blanks ++ value)))
      (.text (.whole name) :: .colon :: tokens) := by
  intro rest hrest
  simp only [List.append_assoc, List.cons_append]
  rw [spells_quoted _ _ (delimited_cons (by decide)), ofChars_colon, ofChars_blanks hblank,
    h rest hrest]
  rfl

end Token

namespace Json

open Token (Spells)

/-- Items are written one by one. -/
theorem compactItems_eq (items : List Json) : compactItems items = items.map compact := by
  induction items with
  | nil => rfl
  | cons item rest ih => rw [compactItems, ih]; rfl

/-- Fields are written one by one, each behind its key. -/
theorem compactFields_eq (fields : List (String × Json)) : compactFields fields
    = fields.map fun field => quoted field.1 ++ ":" ++ field.2.compact := by
  induction fields with
  | nil => rfl
  | cons field rest ih => rw [compactFields, ih]; rfl

/-- Items are laid out one by one. -/
theorem prettyItems_eq (level : Nat) (items : List Json) :
    prettyItems level items = items.map (prettyAt level) := by
  induction items with
  | nil => rfl
  | cons item rest ih => rw [prettyItems, ih]; rfl

/-- Fields are laid out one by one, each behind its key. -/
theorem prettyFields_eq (level : Nat) (fields : List (String × Json)) : prettyFields level fields
    = fields.map fun field => quoted field.1 ++ ": " ++ field.2.prettyAt level := by
  induction fields with
  | nil => rfl
  | cons field rest ih => rw [prettyFields, ih]; rfl

/-- Items have their tokens one by one. -/
theorem itemTokens_eq (items : List Json) : itemTokens items = items.map tokens := by
  induction items with
  | nil => rfl
  | cons item rest ih => rw [itemTokens, ih]; rfl

/-- Fields have their tokens one by one, each behind its key. -/
theorem fieldTokens_eq (fields : List (String × Json)) : fieldTokens fields
    = fields.map fun field => .text (.whole field.1) :: .colon :: field.2.tokens := by
  induction fields with
  | nil => rfl
  | cons field rest ih => rw [fieldTokens, ih]; rfl

/-- Parts that are spelt one by one. -/
private theorem forall₂_spells {α : Type} {l : List α} {text : α → String}
    {tokens : α → List Token} (h : ∀ a ∈ l, Spells (text a).toList (tokens a)) :
    List.Forall₂ Spells ((l.map text).map String.toList) (l.map tokens) := by
  rw [List.map_map, List.forall₂_map_left_iff, List.forall₂_map_right_iff, List.forall₂_same]
  exact h

/-- **The shortest text of a document** spells its tokens. -/
theorem Portable.spells_compact {depth : Nat} {j : Json} (h : j.Portable depth) :
    Spells j.compact.toList j.tokens := by
  induction h with
  | null => exact Token.spells_null
  | bool b => exact Token.spells_bool b
  | number kept => exact Token.spells_number kept
  | text s => exact Token.spells_quoted s
  | array _ ih =>
    rw [compact, tokens, compactItems_eq, itemTokens_eq]
    have hblock := Token.spells_array Token.blank_nil Token.blank_nil (forall₂_spells ih)
    simpa using hblock
  | @object _ fields _ ih =>
    rw [compact, tokens, compactFields_eq, fieldTokens_eq]
    -- a field is its name, a colon and its value, each read by itself
    have hfields : ∀ field ∈ fields, Spells (quoted field.1 ++ ":" ++ field.2.compact).toList
        (.text (.whole field.1) :: .colon :: field.2.tokens) := by
      intro field hfield
      have hspells := Token.spells_field Token.blank_nil field.1 (ih field hfield)
      simpa using hspells
    have hblock := Token.spells_object Token.blank_nil Token.blank_nil (forall₂_spells hfields)
    simpa using hblock

/-- The indentation of a line is blank. -/
private theorem blank_indent (level : Nat) : Token.Blank ('\n' :: (indent level).toList) := by
  intro c hc
  rcases List.mem_cons.mp hc with rfl | hc
  · rfl
  · rw [indent, String.toList_ofList] at hc
    rw [List.eq_of_mem_replicate hc]
    rfl

/-- The lines of a list or an object: the same blanks in front of each part, and others at the
    end. -/
private theorem toList_block (opening closing : String) (level : Nat) (lines : List String) :
    ∃ blanks last, Token.Blank blanks ∧ Token.Blank last ∧
      (block opening closing level lines).toList = opening.toList ++
        (blanks ++ (',' :: blanks).intercalate (lines.map String.toList) ++
          (last ++ closing.toList)) := by
  unfold block
  cases lines with
  | nil => exact ⟨[], [], Token.blank_nil, Token.blank_nil, by simp⟩
  | cons line lines =>
    refine ⟨_, _, blank_indent (level + 1), blank_indent level, ?_⟩
    simp

/-- **The text for human readers** spells the same tokens. -/
theorem Portable.spells_prettyAt {depth : Nat} {j : Json} (h : j.Portable depth) (level : Nat) :
    Spells (j.prettyAt level).toList j.tokens := by
  induction h generalizing level with
  | null => exact Token.spells_null
  | bool b => exact Token.spells_bool b
  | number kept => exact Token.spells_number kept
  | text s => exact Token.spells_quoted s
  | @array _ items _ ih =>
    rw [prettyAt, tokens, prettyItems_eq, itemTokens_eq]
    -- a block differs from the compact form in its blanks only
    obtain ⟨blanks, last, hblanks, hlast, hblock⟩ :=
      toList_block "[" "]" level (items.map (prettyAt (level + 1)))
    rw [hblock]
    exact Token.spells_array hblanks hlast (forall₂_spells fun item hitem => ih item hitem _)
  | @object _ fields _ ih =>
    rw [prettyAt, tokens, prettyFields_eq, fieldTokens_eq]
    have hfields : ∀ field ∈ fields,
        Spells (quoted field.1 ++ ": " ++ field.2.prettyAt (level + 1)).toList
          (.text (.whole field.1) :: .colon :: field.2.tokens) := by
      intro field hfield
      have hblank : Token.Blank [' '] := fun c hc => by rw [List.mem_singleton.mp hc]; rfl
      have hspells := Token.spells_field hblank field.1 (ih field hfield (level + 1))
      simpa using hspells
    obtain ⟨blanks, last, hblanks, hlast, hblock⟩ := toList_block "\x7b" "\x7d" level
      (fields.map fun field => quoted field.1 ++ ": " ++ field.2.prettyAt (level + 1))
    rw [hblock]
    exact Token.spells_object hblanks hlast (forall₂_spells hfields)

end Json

/-! ### From tokens to the tree -/

namespace Node

/-- How the reading of a tree goes on after a token. -/
def Step.resume (step : Step) (rest : List Token) : Node × List Token :=
  match step with
  | .next place => assemble place rest
  | .done node => (node, rest)
  | .stop node => (node, [])

/-- Tokens are taken in one by one. -/
theorem assemble_cons (place : Place) (token : Token) (rest : List Token) :
    assemble place (token :: rest) = (place.step token).resume rest := rfl

/-- Items become nodes one by one. -/
theorem ofItems_eq (items : List Json) : ofItems items = items.map ofJson := by
  induction items with
  | nil => rfl
  | cons item rest ih => rw [ofItems, ih]; rfl

/-- Fields become nodes one by one, each under its key. -/
theorem ofFields_eq (fields : List (String × Json)) :
    ofFields fields = fields.map fun field => (.whole field.1, ofJson field.2) := by
  induction fields with
  | nil => rfl
  | cons field rest ih => rw [ofFields, ih]; rfl

/-- Where few lists and objects lie around it, nothing is nested too deeply. -/
private theorem nest_of_length_le {outer : List Frame} (h : outer.length ≤ maxOuter) (node : Node) :
    nest outer node = node := by
  unfold nest
  rw [List.drop_eq_nil_of_le h]
  rfl

end Node

namespace Json

open Node (assemble complete ofJson)

/-- Tokens are read as a tree wherever so few lists and objects lie around it that it is not nested
    too deeply with `depth` more of them. -/
def ReadAs (depth : Nat) (tokens : List Token) (node : Node) : Prop :=
  ∀ outer rest, outer.length + depth ≤ Node.maxOuter + 1 →
    assemble (.value outer) (tokens ++ rest) = (complete outer node).resume rest

/-- An item of a list is read as a value, since no document starts with the end of a list. -/
private theorem assemble_item (comma : Bool) (items : List Node) (outer : List Node.Frame)
    (j : Json) (rest : List Token) : assemble (.item comma items outer) (j.tokens ++ rest)
      = assemble (.value (.array items :: outer)) (j.tokens ++ rest) := by
  obtain ⟨token, tokens, htokens, hne⟩ :
      ∃ token rest, j.tokens = token :: rest ∧ token ≠ .closeArray := by
    cases j <;> exact ⟨_, _, rfl, nofun⟩
  rw [htokens, List.cons_append, Node.assemble_cons, Node.assemble_cons]
  congr 1
  cases token <;> first | rfl | exact absurd rfl hne

section

variable {depth : Nat} {outer : List Node.Frame}
  (hdepth : outer.length + (depth + 1) ≤ Node.maxOuter + 1)

include hdepth

/-- The items that are left of a list, behind those that have been read. -/
private theorem assemble_items {items : List Json} (hne : items ≠ [])
    (h : ∀ item ∈ items, ReadAs depth item.tokens (ofJson item)) (comma : Bool)
    (before : List Node) (rest : List Token) :
    assemble (.item comma before outer)
        ([Token.comma].intercalate (items.map tokens) ++ .closeArray :: rest)
      = (complete outer (.array (before.reverse ++ items.map ofJson) .closed)).resume rest := by
  induction items generalizing before comma with
  | nil => exact absurd rfl hne
  | cons item items ih =>
    have hread := fun rest => h item List.mem_cons_self (.array before :: outer) rest
      (by rw [List.length_cons]; omega)
    -- the last item is followed by the bracket, any other by a comma
    cases items with
    | nil =>
      have hend : Node.endArray (ofJson item :: before) outer .closed
          = .array (before.reverse ++ [ofJson item]) .closed := by
        rw [Node.endArray, Node.nest_of_length_le (by omega), List.reverse_cons]
      rw [List.map_singleton, List.intercalate_singleton, assemble_item, hread,
        List.map_singleton, ← hend]
      rfl
    | cons next items =>
      have hrest := ih (List.cons_ne_nil _ _) (fun j hj => h j (List.mem_cons_of_mem _ hj)) true
        (ofJson item :: before)
      rw [List.reverse_cons, List.append_assoc, List.singleton_append] at hrest
      rw [List.map_cons, List.map_cons, List.intercalate_cons_cons, List.append_assoc,
        List.append_assoc, assemble_item, hread, List.map_cons, ← hrest]
      rfl

/-- The fields that are left of an object, behind those that have been read. -/
private theorem assemble_fields {fields : List (String × Json)} (hne : fields ≠ [])
    (h : ∀ field ∈ fields, ReadAs depth field.2.tokens (ofJson field.2)) (comma : Bool)
    (before : List (Lexeme String × Node)) (rest : List Token) :
    assemble (.key comma before outer)
        ([Token.comma].intercalate (fields.map fun field =>
          .text (.whole field.1) :: .colon :: field.2.tokens) ++ .closeObject :: rest)
      = (complete outer (.object (before.reverse ++
          fields.map fun field => (.whole field.1, ofJson field.2)) .closed)).resume rest := by
  induction fields generalizing before comma with
  | nil => exact absurd rfl hne
  | cons field fields ih =>
    have hread := fun rest => h field List.mem_cons_self (.object before (.whole field.1) :: outer)
      rest (by rw [List.length_cons]; omega)
    -- the last field is followed by the brace, any other by a comma
    cases fields with
    | nil =>
      have hend : Node.endObject ((.whole field.1, ofJson field.2) :: before) outer .closed
          = .object (before.reverse ++ [(.whole field.1, ofJson field.2)]) .closed := by
        rw [Node.endObject, Node.nest_of_length_le (by omega), List.reverse_cons]
      rw [List.map_singleton, List.intercalate_singleton, List.map_singleton, ← hend]
      show assemble (.value (.object before (.whole field.1) :: outer)) (_ ++ _) = _
      rw [hread]
      rfl
    | cons next fields =>
      have hrest := ih (List.cons_ne_nil _ _) (fun j hj => h j (List.mem_cons_of_mem _ hj)) true
        ((.whole field.1, ofJson field.2) :: before)
      rw [List.reverse_cons, List.append_assoc, List.singleton_append] at hrest
      rw [List.map_cons, List.map_cons, List.intercalate_cons_cons, List.append_assoc,
        List.append_assoc, List.map_cons, ← hrest]
      show assemble (.value (.object before (.whole field.1) :: outer)) (_ ++ _) = _
      rw [hread]
      rfl

end

/-- **The tokens of a document are those of its tree**, wherever it stands. -/
theorem Portable.readAs {depth : Nat} {j : Json} (h : j.Portable depth) :
    ReadAs depth j.tokens (ofJson j) := by
  induction h with
  | null => exact fun _ _ _ => rfl
  | bool b => exact fun _ _ _ => rfl
  | number kept => exact fun _ _ _ => rfl
  | text s => exact fun _ _ _ => rfl
  | @array depth items _ ih =>
    intro outer rest hdepth
    rw [tokens, itemTokens_eq, ofJson, Node.ofItems_eq, List.cons_append, List.append_assoc]
    -- an empty array is closed at once
    by_cases hitems : items = []
    · subst hitems
      have hend : Node.endArray [] outer .closed = .array [] .closed :=
        Node.nest_of_length_le (by omega) _
      show (complete outer (Node.endArray [] outer .closed)).resume rest = _
      rw [hend]
      rfl
    · exact assemble_items hdepth hitems ih false [] rest
  | @object depth fields _ ih =>
    intro outer rest hdepth
    rw [tokens, fieldTokens_eq, ofJson, Node.ofFields_eq, List.cons_append, List.append_assoc]
    -- and so is an empty object
    by_cases hfields : fields = []
    · subst hfields
      have hend : Node.endObject [] outer .closed = .object [] .closed :=
        Node.nest_of_length_le (by omega) _
      show (complete outer (Node.endObject [] outer .closed)).resume rest = _
      rw [hend]
      rfl
    · exact assemble_fields hdepth hfields ih false [] rest

/-- A text that spells the tokens of a document is read as that document and nothing more. -/
private theorem Portable.ofText {depth : Nat} {j : Json} (h : j.Portable depth)
    (hdepth : depth ≤ Node.maxOuter + 1) {text : String}
    (htext : Token.Spells text.toList j.tokens) :
    Node.ofText text = (ofJson j, false) := by
  have htokens : Token.ofText text = j.tokens := by
    have hread := htext [] Token.delimited_nil
    rwa [List.append_nil, Token.ofChars, List.append_nil] at hread
  have htree := h.readAs [] [] (by simpa using hdepth)
  rw [List.append_nil] at htree
  unfold Node.ofText
  rw [htokens, htree]
  rfl

/-- **A document is read back** from its shortest text and from its text for human readers. -/
theorem Portable.ofText_written {depth : Nat} {j : Json} (h : j.Portable depth)
    (hdepth : depth ≤ Node.maxOuter + 1) :
    Node.ofText j.compact = (ofJson j, false) ∧ Node.ofText j.pretty = (ofJson j, false) :=
  ⟨h.ofText hdepth h.spells_compact, h.ofText hdepth (h.spells_prettyAt 0)⟩

end Json

end LicenseForecast
