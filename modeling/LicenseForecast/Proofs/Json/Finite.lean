import LicenseForecast.Json.Node
import LicenseForecast.Proofs.Decimal.Finite

namespace LicenseForecast

/-!
# No text stands for an infinite double

Every double in the tree of a text is finite (`Node.finite_ofText`), whatever the text is like: the
tokens hold none that is not (`Token.finite_of_mem_ofChars`), and a tree is put together from its
tokens step by step (`Node.Place.finite_step`).
-/

open Decimal (isFinite_neg)

/-! ### Tokens -/

/-- An integer or a finite double. -/
def Number.Finite : Number → Prop
  | .whole _ => True
  | .real x => x.isFinite = true

/-- The number, if it can be read, is finite. -/
def Lexeme.Finite : Lexeme Number → Prop
  | .whole n => n.Finite
  | _ => True

namespace Token

/-- The number that a token holds, if any, is finite. -/
def Finite : Token → Prop
  | .number n => n.Finite
  | _ => True

/-- A number with places or an exponent is finite, or it is out of range. -/
private theorem finite_realNumber (negative : Bool) (s : Significand) :
    (realNumber negative s).Finite := by
  unfold realNumber
  split
  next x h =>
    have hx := Significand.isFinite_of_toFloat? h
    cases negative with
    | false => exact hx
    | true => exact isFinite_neg hx
  next => trivial

/-- A number without them is an integer, or a finite double if it is too large for 64 bits. -/
private theorem finite_wholeNumber (negative : Bool) (digits : List Char) :
    (wholeNumber negative digits).Finite := by
  unfold wholeNumber
  simp only
  split
  · split
    · show (-0.0 : Float).isFinite = true
      decide +kernel
    · split
      · trivial
      · exact finite_realNumber ..
  · split
    · trivial
    · exact finite_realNumber ..

/-- Behind an exponent there is a finite number, or there is none. -/
private theorem finite_readExponent {negative : Bool} {s : Significand} {plain : Lexeme Number}
    (h : plain.Finite) (cs : List Char) : (readExponent negative s plain cs).1.Finite := by
  unfold readExponent
  split
  · exact h
  · split
    · simp only
      split
      · trivial
      · exact finite_realNumber ..
    · exact h

/-- Behind the places of a number it is finite, or there is none. -/
private theorem finite_readPlaces (negative : Bool) (digits cs : List Char) :
    (readPlaces negative digits cs).1.Finite := by
  unfold readPlaces
  simp only
  split
  · split
    · trivial
    · exact finite_readExponent (finite_realNumber ..) _
  · exact finite_readExponent (finite_wholeNumber ..) _

/-- A number that is read is finite. -/
private theorem finite_readNumber (negative : Bool) (cs : List Char) :
    (readNumber negative cs).1.Finite := by
  unfold readNumber
  split
  · trivial
  · trivial
  · exact finite_readPlaces ..

/-- A word is read as its token, or it is broken. -/
private theorem finite_wordToken {token : Token} (h : token.Finite) (word : String)
    (cs : List Char) : (wordToken word token cs).1.Finite := by
  unfold wordToken
  split
  · exact h
  · trivial

/-- The first token of some characters is finite. -/
private theorem finite_first (c : Char) (cs : List Char) : (first c cs).1.Finite := by
  unfold first
  split
  case h_8 => exact finite_readNumber true cs
  case h_9 | h_10 | h_11 => exact finite_wordToken (by trivial) ..
  case h_12 =>
    split
    · exact finite_readNumber false _
    · trivial
  all_goals trivial

/-- **No token of a text is infinite.** -/
theorem finite_of_mem_ofChars {cs : List Char} : ∀ token ∈ ofChars cs, token.Finite := by
  fun_induction ofChars cs with
  | case1 => nofun
  | case2 c cs _ ih => exact ih
  | case3 c cs _ ih => exact List.forall_mem_cons.mpr ⟨finite_first c cs, ih⟩

end Token

/-! ### Trees -/

namespace Node

/-- All numbers in a tree that can be read are finite. -/
inductive Finite : Node → Prop
  | null : Finite .null
  | bool (b : Bool) : Finite (.bool b)
  | number {n : Lexeme Number} (h : n.Finite) : Finite (.number n)
  | text (s : Lexeme String) : Finite (.text s)
  | array {items : List Node} {ending : Ending} (h : ∀ item ∈ items, Finite item) :
      Finite (.array items ending)
  | object {fields : List (Lexeme String × Node)} {ending : Ending}
      (h : ∀ field ∈ fields, Finite field.2) : Finite (.object fields ending)
  | deep {inner : Node} (h : Finite inner) : Finite (.deep inner)
  | broken (fault : Fault) : Finite (.broken fault)
  | absent : Finite .absent

/-- What has been read of a list or an object is finite. -/
def Frame.Finite : Frame → Prop
  | .array items => ∀ item ∈ items, item.Finite
  | .object fields _ => ∀ field ∈ fields, field.2.Finite

/-- What has been read up to a place is finite. -/
def Place.Finite : Place → Prop
  | .value outer => ∀ frame ∈ outer, frame.Finite
  | .item _ items outer | .itemEnd items outer =>
    ∀ frame ∈ Frame.array items :: outer, frame.Finite
  | .key _ fields outer | .fieldEnd fields outer =>
    ∀ frame ∈ Frame.object fields (.flawed .malformed) :: outer, frame.Finite
  | .colon fields name outer => ∀ frame ∈ Frame.object fields name :: outer, frame.Finite

/-- What a token leads to is finite. -/
def Step.Finite : Step → Prop
  | .next place => place.Finite
  | .done node | .stop node => node.Finite

section

variable {outer : List Frame} (houter : ∀ frame ∈ outer, frame.Finite)

/-- A node is as finite as one that is nested too deeply. -/
private theorem finite_nest {node : Node} (h : node.Finite) (outer : List Frame) :
    (nest outer node).Finite := by
  unfold nest
  split
  · exact h
  · exact .deep h

/-- A list is finite if its items are, however it ends. -/
theorem finite_endArray {items : List Node} (h : ∀ item ∈ items, item.Finite)
    (outer : List Frame) (ending : Ending) : (endArray items outer ending).Finite :=
  finite_nest (.array fun item hitem => h item (List.mem_reverse.mp hitem)) outer

/-- An object is finite if its fields are, however it ends. -/
theorem finite_endObject {fields : List (Lexeme String × Node)}
    (h : ∀ field ∈ fields, field.2.Finite) (outer : List Frame) (ending : Ending) :
    (endObject fields outer ending).Finite :=
  finite_nest (.object fun field hfield => h field (List.mem_reverse.mp hfield)) outer

include houter

/-- What is given up is finite if all is that stands around it. -/
theorem finite_abandon {node : Node} (h : node.Finite) : (abandon outer node).Finite := by
  induction outer generalizing node with
  | nil => exact h
  | cons frame outer ih =>
    obtain ⟨hframe, hrest⟩ := List.forall_mem_cons.mp houter
    cases frame with
    | array items =>
      exact ih hrest (finite_endArray (List.forall_mem_cons.mpr ⟨h, hframe⟩) _ _)
    | object fields key =>
      exact ih hrest (finite_endObject (List.forall_mem_cons.mpr ⟨h, hframe⟩) _ _)

/-- What is complete takes its place among finite nodes. -/
theorem finite_complete {node : Node} (h : node.Finite) : (complete outer node).Finite := by
  cases outer with
  | nil => exact h
  | cons frame outer =>
    obtain ⟨hframe, hrest⟩ := List.forall_mem_cons.mp houter
    cases frame with
    | array items =>
      exact List.forall_mem_cons.mpr ⟨List.forall_mem_cons.mpr ⟨h, hframe⟩, hrest⟩
    | object fields key =>
      exact List.forall_mem_cons.mpr ⟨List.forall_mem_cons.mpr ⟨h, hframe⟩, hrest⟩

/-- A number or a text takes its place there, or all is given up. -/
theorem finite_completeLexeme {α : Type} {node : Node} (h : node.Finite) (l : Lexeme α) :
    (completeLexeme outer l node).Finite := by
  unfold completeLexeme
  split
  · exact finite_abandon houter h
  · exact finite_complete houter h

/-- A value begins with a finite token. -/
theorem finite_start {token : Token} (h : token.Finite) : (start outer token).Finite := by
  cases token with
  | openArray => exact List.forall_mem_cons.mpr ⟨nofun, houter⟩
  | openObject => exact List.forall_mem_cons.mpr ⟨nofun, houter⟩
  | null => exact finite_complete houter .null
  | bool b => exact finite_complete houter (.bool b)
  | number n => exact finite_completeLexeme houter (.number h) n
  | text s => exact finite_completeLexeme houter (.text s) s
  | broken fault => exact finite_abandon houter (.broken fault)
  | comma | colon | closeArray | closeObject => exact finite_abandon houter (.broken .malformed)

/-- A key, or the end of an object in place of one, leaves what stands around it finite. -/
theorem finite_startKey {fields : List (Lexeme String × Node)}
    (h : ∀ field ∈ fields, field.2.Finite) (comma : Bool) (token : Token) :
    (startKey comma fields outer token).Finite := by
  have hframes : ∀ key, ∀ frame ∈ Frame.object fields key :: outer, frame.Finite := fun _ =>
    List.forall_mem_cons.mpr ⟨h, houter⟩
  have hstray := finite_abandon houter (finite_endObject h outer .stray)
  -- a key is put aside until its value has been read
  unfold startKey
  split
  · exact finite_abandon (hframes _) .absent
  · exact hframes _
  · split
    · exact hstray
    · exact finite_complete houter (finite_endObject h outer .closed)
  · exact hstray

end

/-- **A token keeps what has been read finite.** -/
theorem Place.finite_step {place : Place} (hplace : place.Finite) {token : Token}
    (h : token.Finite) : (place.step token).Finite := by
  cases place with
  | value outer => exact finite_start hplace h
  | item comma items outer =>
    -- numbers are kept in the items read so far and in the places around them
    obtain ⟨hitems, houter⟩ := List.forall_mem_cons.mp hplace
    unfold Place.step
    simp only
    split
    -- a bracket right behind a comma is stray
    · split
      · exact finite_abandon houter (finite_endArray hitems outer .stray)
      · exact finite_complete houter (finite_endArray hitems outer .closed)
    · exact finite_start hplace h
  | itemEnd items outer =>
    obtain ⟨hitems, houter⟩ := List.forall_mem_cons.mp hplace
    unfold Place.step
    simp only
    split
    · exact hplace
    · exact finite_complete houter (finite_endArray hitems outer .closed)
    · exact finite_abandon houter (finite_endArray hitems outer .stray)
  | key comma fields outer =>
    obtain ⟨hfields, houter⟩ := List.forall_mem_cons.mp hplace
    exact finite_startKey houter hfields comma token
  | colon fields name outer =>
    unfold Place.step
    simp only
    split
    · exact hplace
    · exact finite_abandon hplace (.broken .malformed)
  | fieldEnd fields outer =>
    obtain ⟨hfields, houter⟩ := List.forall_mem_cons.mp hplace
    unfold Place.step
    simp only
    split
    · exact hplace
    · exact finite_complete houter (finite_endObject hfields outer .closed)
    · exact finite_abandon houter (finite_endObject hfields outer .stray)

/-- What is left where the tokens end is finite. -/
theorem Place.finite_ended {place : Place} (hplace : place.Finite) : place.ended.Finite := by
  cases place with
  | value outer => exact finite_abandon hplace .absent
  | item comma items outer | itemEnd items outer =>
    obtain ⟨hitems, houter⟩ := List.forall_mem_cons.mp hplace
    exact finite_abandon houter (finite_endArray hitems outer _)
  | key comma fields outer | fieldEnd fields outer =>
    obtain ⟨hfields, houter⟩ := List.forall_mem_cons.mp hplace
    exact finite_abandon houter (finite_endObject hfields outer _)
  | colon fields name outer => exact finite_abandon hplace .absent

/-- What is put together from finite tokens is finite. -/
theorem finite_assemble {place : Place} (hplace : place.Finite) {tokens : List Token}
    (h : ∀ token ∈ tokens, token.Finite) : (assemble place tokens).1.Finite := by
  induction tokens generalizing place with
  | nil => exact Place.finite_ended hplace
  | cons token tokens ih =>
    obtain ⟨htoken, htokens⟩ := List.forall_mem_cons.mp h
    have hstep := Place.finite_step hplace htoken
    unfold assemble
    cases hnext : place.step token with
    | next place =>
      rw [hnext] at hstep
      exact ih hstep htokens
    | done node | stop node =>
      rw [hnext] at hstep
      exact hstep

/-- **The tree of a text is finite.** -/
theorem finite_ofText (s : String) : (ofText s).1.Finite := by
  have hplace : (Place.value []).Finite := nofun
  exact finite_assemble hplace Token.finite_of_mem_ofChars

end Node

end LicenseForecast
