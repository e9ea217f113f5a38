import LicenseForecast.Json.Basic

namespace LicenseForecast

/-!
# JSON tokens — reading the characters of a document

`Token.ofText` cuts a text into tokens.  A token says how far it could be read: a skipped value
is read more leniently than a wanted one, so a token that only a skipping reader accepts is kept
as `flawed`, and one that no reader can finish as `cut`.
-/

/-- Why a text is refused. -/
inductive Fault where
  /-- The text is not JSON at this place. -/
  | malformed
  /-- The text ends too early. -/
  | unfinished
  /-- What stands here is JSON, but not what is wanted. -/
  | mismatch
deriving DecidableEq, Repr, Inhabited

/-- What became of reading a number or a quoted text. -/
inductive Lexeme (α : Type) where
  | whole (value : α)
  /-- Complete, but only fit to be skipped. -/
  | flawed (fault : Fault)
  /-- It cannot be completed; a reader and a skipper see different faults. -/
  | cut (reading skipping : Fault)
deriving Inhabited

/-- The value, for a reader that wants it. -/
def Lexeme.read {α : Type} : Lexeme α → Except Fault α
  | .whole value => .ok value
  | .flawed fault => .error fault
  | .cut reading _ => .error reading

/-- The same, for a reader that only wants to get past it. -/
def Lexeme.skip {α : Type} : Lexeme α → Except Fault Unit
  | .whole _ => .ok ()
  | .flawed _ => .ok ()
  | .cut _ skipping => .error skipping

/-- The fault of a reader that wanted something else. -/
def Lexeme.refusal {α : Type} : Lexeme α → Fault
  | .whole _ => .mismatch
  | .flawed fault => fault
  | .cut reading _ => reading

/-- A token of a document. -/
inductive Token where
  | openObject
  | closeObject
  | openArray
  | closeArray
  | comma
  | colon
  | null
  | bool (b : Bool)
  | number (n : Lexeme Number)
  | text (s : Lexeme String)
  /-- A misspelt or unfinished word, or a character that starts nothing. -/
  | broken (fault : Fault)
deriving Inhabited

namespace Token

open Decimal (unsignedMax signedMin)

/-! ### Quoted texts -/

/-- The value of a hexadecimal digit. -/
def hexValue? (c : Char) : Option Nat :=
  if '0' ≤ c ∧ c ≤ '9' then some (c.toNat - 48)
  else if 'a' ≤ c ∧ c ≤ 'f' then some (c.toNat - 87)
  else if 'A' ≤ c ∧ c ≤ 'F' then some (c.toNat - 55)
  else none

/-- The value of four hexadecimal digits. -/
def hexUnit? (a b c d : Char) : Option Nat := do
  return ((← hexValue? a) * 16 + (← hexValue? b)) * 256 + (← hexValue? c) * 16 + (← hexValue? d)

/-- The fault of a `\u` that is not followed by four hexadecimal digits: the text ends too early
    if not even four bytes are left. -/
def hexFault (rest : List Char) : Fault :=
  if (String.ofList (rest.take 4)).utf8ByteSize < 4 then .unfinished else .malformed

/-- The character that a backslash and `c` stand for. -/
def shortEscape? (c : Char) : Option Char :=
  if c = '"' ∨ c = '\\' ∨ c = '/' then some c
  else if c = 'b' then some '\x08'
  else if c = 'f' then some '\x0c'
  else if c = 'n' then some '\n'
  else if c = 'r' then some '\r'
  else if c = 't' then some '\t'
  else none

/-- What is known of a quoted text on the way: its characters so far, last one first, the first
    flaw, and the first half of a surrogate pair whose second half has to come next. -/
structure Quote where
  chars : List Char
  flaw : Option Fault
  high : Option Nat

/-- The text goes on with something that is not the missing half of a pair. -/
def Quote.settled (q : Quote) (fault : Fault) : Quote :=
  match q.high with
  | none => q
  | some _ => ⟨q.chars, q.flaw.or (some fault), none⟩

/-- The text goes on with the character `c`. -/
def Quote.push (q : Quote) (c : Char) : Quote :=
  let q := q.settled .malformed
  ⟨c :: q.chars, q.flaw, none⟩

/-- The text goes on with a `\u` escape of the code `n`. -/
def Quote.pushUnit (q : Quote) (n : Nat) : Quote :=
  let isLow := 0xDC00 ≤ n ∧ n < 0xE000
  match q.high with
  | some h =>
    if isLow then
      ⟨Char.ofNat (0x10000 + (h - 0xD800) * 0x400 + (n - 0xDC00)) :: q.chars, q.flaw, none⟩
    else
      ⟨q.chars, q.flaw.or (some .malformed), none⟩
  | none =>
    if isLow then ⟨q.chars, q.flaw.or (some .malformed), none⟩
    else if 0xD800 ≤ n ∧ n < 0xDC00 then ⟨q.chars, q.flaw, some n⟩
    else ⟨Char.ofNat n :: q.chars, q.flaw, none⟩

/-- The text cannot go on because of `fault`. -/
def Quote.cut (q : Quote) (fault : Fault) : Lexeme String := .cut (q.flaw.getD fault) fault

/-- The closing quote is met. -/
def Quote.close (q : Quote) : Lexeme String :=
  let q := q.settled .malformed
  match q.flaw with
  | none => .whole (String.ofList q.chars.reverse)
  | some fault => .flawed fault

/-- A quoted text after its opening quote, and the characters after the closing one. -/
def readText (q : Quote) : List Char → Lexeme String × List Char
  | [] => (q.cut .unfinished, [])
  | '"' :: rest => (q.close, rest)
  | ['\\'] => (q.cut .unfinished, [])
  | '\\' :: 'u' :: a :: b :: c :: d :: rest =>
    match hexUnit? a b c d with
    | some n => readText (q.pushUnit n) rest
    | none => (q.cut .malformed, [])
  | '\\' :: c :: rest =>
    if c = 'u' then ((q.cut (hexFault rest)), [])
    else
      match shortEscape? c with
      | some e => readText (q.push e) rest
      | none => ((q.settled .malformed).cut .malformed, [])
  | c :: rest =>
    if c.toNat < 32 then ((q.settled .malformed).cut .malformed, []) else readText (q.push c) rest

/-! ### Numbers -/

/-- The value of a decimal digit. -/
def digitValue (c : Char) : Nat := c.toNat - 48

/-- The significand of a number on the way: the leading digits that fit into 64 bits, and the
    power of ten that it is to be multiplied with. -/
structure Significand where
  value : Nat
  exponent : Int

/-- One more digit before the point.  The first that does not fit and all after it only raise
    the exponent. -/
def Significand.pushWhole (s : Significand) (c : Char) : Significand :=
  let value := s.value * 10 + digitValue c
  if s.exponent = 0 ∧ value ≤ unsignedMax then ⟨value, 0⟩ else ⟨s.value, s.exponent + 1⟩

/-- The digits after the point, up to the first that does not fit. -/
def Significand.pushPlaces (s : Significand) : List Char → Significand
  | [] => s
  | c :: rest =>
    let value := s.value * 10 + digitValue c
    if value ≤ unsignedMax then pushPlaces ⟨value, s.exponent - 1⟩ rest else s

/-- `x / 10^e`, dividing by at most `10^308` at a time. -/
def divPower (x : Float) (e : Nat) : Float :=
  if e ≤ 308 then x / Float.ofScientific 1 false e
  else if x == 0.0 then x
  else divPower (x / 1e308) (e - 308)
termination_by e

/-- The nearest double of the significand, multiplied or divided by the power of ten.  There is
    none when the result is too large. -/
def Significand.toFloat? (s : Significand) : Option Float :=
  let x := s.value.toUInt64.toFloat
  if s.exponent < 0 then some (divPower x s.exponent.natAbs)
  else if s.exponent ≤ 308 then
    let y := x * Float.ofScientific 1 false s.exponent.natAbs
    if y.isInf then none else some y
  else if x == 0.0 then some x
  else none

/-- The natural number of some digits. -/
def natural (digits : List Char) : Nat := digits.foldl (fun n c => n * 10 + digitValue c) 0

/-- A number that is not an integer, too large ones being only fit to be skipped. -/
def realNumber (negative : Bool) (s : Significand) : Lexeme Number :=
  match s.toFloat? with
  | some x => .whole (.real (if negative then -x else x))
  | none => .flawed .malformed

/-- A number without point and exponent stays an integer if it fits, except for `-0`. -/
def wholeNumber (negative : Bool) (digits : List Char) : Lexeme Number :=
  let n := natural digits
  if negative then
    if n = 0 then .whole (.real (-0.0))
    else if signedMin ≤ -(n : Int) then .whole (.whole (-(n : Int)))
    else realNumber true (digits.foldl Significand.pushWhole ⟨0, 0⟩)
  else if n ≤ unsignedMax then .whole (.whole n)
  else realNumber false (digits.foldl Significand.pushWhole ⟨0, 0⟩)

/-- A digit is missing.  At the end of the text a reader waits for more of it. -/
def missingDigit (rest : List Char) : Lexeme Number :=
  .cut (if rest.isEmpty then .unfinished else .malformed) .malformed

/-- The sign of an exponent and what follows it. -/
def exponentSign : List Char → Bool × List Char
  | '-' :: rest => (true, rest)
  | '+' :: rest => (false, rest)
  | rest => (false, rest)

/-- The number after its digits: an exponent, or nothing more of it. -/
def readExponent (negative : Bool) (s : Significand) (plain : Lexeme Number) (cs : List Char) :
    Lexeme Number × List Char :=
  match cs with
  | [] => (plain, [])
  | c :: rest =>
    if c = 'e' ∨ c = 'E' then
      let (down, rest) := exponentSign rest
      let digits := rest.takeWhile Char.isDigit
      if digits.isEmpty then (missingDigit rest, [])
      else
        let e : Int := natural digits
        (realNumber negative ⟨s.value, if down then s.exponent - e else s.exponent + e⟩,
          rest.dropWhile Char.isDigit)
    else (plain, cs)

/-- The number after the digits before the point. -/
def readPlaces (negative : Bool) (digits : List Char) (cs : List Char) :
    Lexeme Number × List Char :=
  let s := digits.foldl Significand.pushWhole ⟨0, 0⟩
  match cs with
  | '.' :: rest =>
    let places := rest.takeWhile Char.isDigit
    if places.isEmpty then (missingDigit rest, [])
    else
      let s := s.pushPlaces places
      readExponent negative s (realNumber negative s) (rest.dropWhile Char.isDigit)
  | cs => readExponent negative s (wholeNumber negative digits) cs

/-- A number after its sign, and the characters after it.  No digit may follow a leading zero. -/
def readNumber (negative : Bool) (cs : List Char) : Lexeme Number × List Char :=
  match cs.takeWhile Char.isDigit with
  | [] => (missingDigit cs, [])
  | '0' :: _ :: _ => (.cut .malformed .malformed, [])
  | digits => readPlaces negative digits (cs.dropWhile Char.isDigit)

/-! ### Words and texts -/

/-- The rest of a text after a word; `word` is what is still missing of it. -/
def readWord : List Char → List Char → Except Fault (List Char)
  | [], rest => .ok rest
  | _ :: _, [] => .error .unfinished
  | w :: word, c :: rest => if w = c then readWord word rest else .error .malformed

/-- The token of a word whose first character has been read. -/
def wordToken (word : String) (token : Token) (cs : List Char) : Token × List Char :=
  match readWord word.toList cs with
  | .ok rest => (token, rest)
  | .error fault => (.broken fault, [])

/-- The token that starts with `c`, and the characters after it.  Nothing is read after a token
    that could not be finished. -/
def first (c : Char) (cs : List Char) : Token × List Char :=
  match c with
  | '{' => (.openObject, cs)
  | '}' => (.closeObject, cs)
  | '[' => (.openArray, cs)
  | ']' => (.closeArray, cs)
  | ',' => (.comma, cs)
  | ':' => (.colon, cs)
  | '"' => (readText ⟨[], none, none⟩ cs).map .text id
  | '-' => (readNumber true cs).map .number id
  | 'n' => wordToken "ull" .null cs
  | 't' => wordToken "rue" (.bool true) cs
  | 'f' => wordToken "alse" (.bool false) cs
  | c =>
    if c.isDigit then (readNumber false (c :: cs)).map .number id else (.broken .malformed, [])

/-- The blanks between tokens. -/
def isBlank (c : Char) : Bool := c = ' ' || c = '\t' || c = '\n' || c = '\r'

/-! ### Each token takes at least one character -/

/-- Reading a text uses up its characters. -/
theorem length_readText_le (q : Quote) (cs : List Char) :
    (readText q cs).2.length ≤ cs.length := by
  fun_induction readText q cs <;> simp_all <;> omega

/-- Reading a word uses up its characters. -/
theorem length_readWord_le {word cs rest : List Char} (h : readWord word cs = .ok rest) :
    rest.length ≤ cs.length := by
  fun_induction readWord word cs with
  | case1 => simp_all
  | case2 => simp at h
  | case3 word c r ih => exact Nat.le_succ_of_le (ih h)
  | case4 => simp at h

/-- So does reading the token of a word, or nothing is used up. -/
theorem length_wordToken_le (word : String) (token : Token) (cs : List Char) :
    (wordToken word token cs).2.length ≤ cs.length := by
  unfold wordToken
  split
  · exact length_readWord_le (by assumption)
  · simp

/-- What is left of a list after some of it has been dropped is no longer. -/
theorem length_dropWhile_le (p : Char → Bool) (cs : List Char) :
    (cs.dropWhile p).length ≤ cs.length :=
  (List.dropWhile_suffix p).length_le

/-- A sign in front of an exponent is used up. -/
theorem length_exponentSign_le (cs : List Char) : (exponentSign cs).2.length ≤ cs.length := by
  unfold exponentSign
  split <;> simp

/-- Reading an exponent adds no characters. -/
theorem length_readExponent_le (negative : Bool) (s : Significand) (plain : Lexeme Number)
    (cs : List Char) : (readExponent negative s plain cs).2.length ≤ cs.length := by
  unfold readExponent
  split
  · simp
  · rename_i c rest
    have hsign := length_exponentSign_le rest
    split
    · simp only
      split
      · simp
      · have := length_dropWhile_le Char.isDigit (exponentSign rest).2
        simp only [List.length_cons]
        omega
    · simp

/-- Nor does reading the places behind a point. -/
theorem length_readPlaces_le (negative : Bool) (digits cs : List Char) :
    (readPlaces negative digits cs).2.length ≤ cs.length := by
  unfold readPlaces
  simp only
  split
  · rename_i rest
    split
    · simp
    -- the point and the digits behind it are used up before the exponent is read
    · have h := length_readExponent_le negative
        ((digits.foldl Significand.pushWhole ⟨0, 0⟩).pushPlaces (rest.takeWhile Char.isDigit))
        (realNumber negative ((digits.foldl Significand.pushWhole ⟨0, 0⟩).pushPlaces
          (rest.takeWhile Char.isDigit))) (rest.dropWhile Char.isDigit)
      have := length_dropWhile_le Char.isDigit rest
      simp only [List.length_cons]
      omega
  · exact length_readExponent_le ..

/-- A number that begins with a digit uses up that digit at least. -/
theorem length_readNumber_lt {negative : Bool} {c : Char} {cs : List Char} (hc : c.isDigit) :
    (readNumber negative (c :: cs)).2.length ≤ cs.length := by
  unfold readNumber
  have hdrop : (c :: cs).dropWhile Char.isDigit = cs.dropWhile Char.isDigit := by
    simp [hc]
  split
  · simp
  · simp
  · rw [hdrop]
    exact Nat.le_trans (length_readPlaces_le ..) (length_dropWhile_le ..)

/-- Reading a number adds no characters. -/
theorem length_readNumber_le (negative : Bool) (cs : List Char) :
    (readNumber negative cs).2.length ≤ cs.length := by
  unfold readNumber
  split
  · simp
  · simp
  · exact Nat.le_trans (length_readPlaces_le ..) (length_dropWhile_le ..)

/-- **The first token leaves no more than what stands behind its first character**, so that reading
    comes to an end. -/
theorem length_first_le (c : Char) (cs : List Char) : (first c cs).2.length ≤ cs.length := by
  unfold first
  split
  case h_7 => exact length_readText_le ..
  case h_8 => exact length_readNumber_le ..
  case h_9 | h_10 | h_11 => exact length_wordToken_le ..
  case h_12 =>
    split
    · exact length_readNumber_lt (by assumption)
    · exact Nat.zero_le _
  all_goals exact Nat.le_refl _

/-- The tokens of a text.  The blanks between them are lost. -/
def ofChars : List Char → List Token
  | [] => []
  | c :: cs =>
    if isBlank c then ofChars cs
    else (first c cs).1 :: ofChars (first c cs).2
termination_by cs => cs.length
decreasing_by
  · simp
  · have := length_first_le c cs
    simp only [List.length_cons]
    omega

/-- The tokens of a text. -/
def ofText (s : String) : List Token := ofChars s.toList

end Token

end LicenseForecast
