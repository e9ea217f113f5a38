import LicenseForecast.Json.Text
import LicenseForecast.Json.Token
import Mathlib.Data.List.TakeWhile

namespace LicenseForecast

/-!
# How the parts of a document are spelt

A text is read token by token, so that the text of a document is read back if each of its parts is.
A number ends where no digit, point or exponent follows (`Token.Delimited`), and that is so wherever
a number stands in a document.  So characters that are read as some tokens on their own are read as
the same tokens inside a document (`Token.Spells`).

* `Token.spells_quoted` — any text in quotes is read back, whatever characters it consists of;
* `Token.spells_number` — a number is read back inside a document if it is so on its own;
* `Number.isKept_whole` — an integer is, provided that 64 bits can hold it.
-/

namespace Token

/-- A number cannot go on here: neither with a digit nor with a point nor with an exponent. -/
def Delimited (rest : List Char) : Prop :=
  ∀ c, rest.head? = some c → c.isDigit = false ∧ c ≠ '.' ∧ c ≠ 'e' ∧ c ≠ 'E'

/-- Characters spell some tokens if they are read as these wherever a number may end. -/
def Spells (cs : List Char) (tokens : List Token) : Prop :=
  ∀ rest, Delimited rest → ofChars (cs ++ rest) = tokens ++ ofChars rest

theorem delimited_nil : Delimited [] := nofun

/-- A number can end in front of any character that no number goes on with. -/
theorem delimited_cons {c : Char} {cs : List Char}
    (h : c.isDigit = false ∧ c ≠ '.' ∧ c ≠ 'e' ∧ c ≠ 'E') : Delimited (c :: cs) := by
  intro d hd
  cases hd
  exact h

/-- A number can end in front of a blank. -/
theorem delimited_of_isBlank {c : Char} {cs : List Char} (h : isBlank c = true) :
    Delimited (c :: cs) := by
  refine delimited_cons ?_
  simp only [isBlank, Bool.or_eq_true, decide_eq_true_eq] at h
  rcases h with ((rfl | rfl) | rfl) | rfl <;> decide

/-! ### Single characters and words -/

/-- A blank between two tokens is skipped. -/
theorem ofChars_blank {c : Char} (h : isBlank c = true) (cs : List Char) :
    ofChars (c :: cs) = ofChars cs := by
  rw [ofChars, if_pos h]

/-- Any number of blanks is skipped. -/
theorem ofChars_blanks {blanks : List Char} (h : ∀ c ∈ blanks, isBlank c = true)
    (cs : List Char) : ofChars (blanks ++ cs) = ofChars cs := by
  induction blanks with
  | nil => rfl
  | cons c blanks ih =>
    rw [List.cons_append, ofChars_blank (h c List.mem_cons_self)]
    exact ih fun c hc => h c (List.mem_cons_of_mem _ hc)

/-- The first token of some characters. -/
theorem ofChars_cons {c : Char} {cs rest : List Char} {token : Token} (hc : isBlank c = false)
    (h : first c cs = (token, rest)) : ofChars (c :: cs) = token :: ofChars rest := by
  rw [ofChars, if_neg (by simp [hc]), h]

theorem ofChars_comma (cs : List Char) : ofChars (',' :: cs) = .comma :: ofChars cs :=
  ofChars_cons rfl rfl

theorem ofChars_colon (cs : List Char) : ofChars (':' :: cs) = .colon :: ofChars cs :=
  ofChars_cons rfl rfl

/-- A word is read to its end where it stands in full. -/
theorem readWord_append (word rest : List Char) : readWord word (word ++ rest) = .ok rest := by
  induction word with
  | nil => rfl
  | cons c word ih => rw [List.cons_append, readWord, if_pos rfl, ih]

/-- The token of a word that stands there in full. -/
theorem wordToken_append (word : String) (token : Token) (rest : List Char) :
    wordToken word token (word.toList ++ rest) = (token, rest) := by
  unfold wordToken
  rw [readWord_append]

/-- The word for nothing spells its token. -/
theorem spells_null : Spells "null".toList [.null] := fun rest _ =>
  ofChars_cons rfl (wordToken_append "ull" .null rest)

/-- The words for truth values spell their tokens. -/
theorem spells_bool (b : Bool) : Spells (if b then "true" else "false").toList [.bool b] := by
  intro rest _
  cases b with
  | false => exact ofChars_cons rfl (wordToken_append "alse" (.bool false) rest)
  | true => exact ofChars_cons rfl (wordToken_append "rue" (.bool true) rest)

/-! ### Quoted texts -/

/-- The escape of a control character stands for that character. -/
private theorem hexUnit?_escape : ∀ n < 32,
    hexUnit? '0' '0' (Json.hexDigit (n / 16)) (Json.hexDigit (n % 16)) = some n := by
  decide

/-- The ways in which a character stands in a quoted text. -/
private theorem escaped_cases (c : Char) :
    (∃ d, d ≠ 'u' ∧ shortEscape? d = some c ∧ Json.escaped c = ['\\', d]) ∨
    (c.toNat < 32 ∧ Json.escaped c
      = ['\\', 'u', '0', '0', Json.hexDigit (c.toNat / 16), Json.hexDigit (c.toNat % 16)]) ∨
    (c ≠ '"' ∧ c ≠ '\\' ∧ ¬ c.toNat < 32 ∧ Json.escaped c = [c]) := by
  unfold Json.escaped
  -- seven characters have a short escape
  iterate 7
    split
    next h => exact .inl ⟨_, by decide, by rw [h]; rfl, rfl⟩
  split
  next hcontrol => exact .inr (.inl ⟨hcontrol, rfl⟩)
  next hquote hslash _ _ _ _ _ hcontrol => exact .inr (.inr ⟨hquote, hslash, hcontrol, rfl⟩)

/-- **A character is read back**, whether it is escaped or not. -/
private theorem readText_escaped {q : Quote} (hq : q.high = none) (c : Char) (rest : List Char) :
    readText q (Json.escaped c ++ rest) = readText (q.push c) rest := by
  rcases escaped_cases c with ⟨d, hd, hc, hescaped⟩ | ⟨hcontrol, hescaped⟩ |
    ⟨hquote, hslash, hcontrol, hescaped⟩ <;> rw [hescaped]
  -- short escapes, `\u00..` escapes of control characters, and characters as they are
  · show readText q ('\\' :: d :: rest) = _
    rw [readText.eq_5 q d rest (by simp [hd]), if_neg hd, hc]
  · have hunit : q.pushUnit c.toNat = q.push c := by
      -- a control character is no half of a surrogate pair
      have hlow : ¬ (0xDC00 ≤ c.toNat ∧ c.toNat < 0xE000) := by omega
      have hhigh : ¬ (0xD800 ≤ c.toNat ∧ c.toNat < 0xDC00) := by omega
      simp only [Quote.pushUnit, Quote.push, Quote.settled, hq, if_neg hlow, if_neg hhigh,
        Char.ofNat_toNat]
    show readText q ('\\' :: 'u' :: '0' :: '0' :: _ :: _ :: rest) = _
    rw [readText.eq_4, hexUnit?_escape _ hcontrol, ← hunit]
  · show readText q (c :: rest) = _
    rw [readText.eq_6 q c rest hquote (fun h _ => hslash h) (fun _ _ _ _ _ h _ => hslash h)
      (fun _ _ h _ => hslash h), if_neg hcontrol]

/-- The characters of a text are read back one by one. -/
private theorem readText_flatMap (s : List Char) (q : Quote) (hq : q.high = none)
    (rest : List Char) : readText q (s.flatMap Json.escaped ++ '"' :: rest)
      = (Quote.close ⟨s.reverse ++ q.chars, q.flaw, none⟩, rest) := by
  induction s generalizing q with
  | nil =>
    obtain ⟨chars, flaw, high⟩ := q
    cases hq
    rfl
  | cons c s ih =>
    have hpush : q.push c = ⟨c :: q.chars, q.flaw, none⟩ := by
      simp only [Quote.push, Quote.settled, hq]
    rw [List.flatMap_cons, List.append_assoc, readText_escaped hq, hpush, ih _ rfl]
    simp

/-- **Any text in quotes is read back.** -/
theorem spells_quoted (s : String) : Spells (Json.quoted s).toList [.text (.whole s)] := by
  intro rest _
  have hread := readText_flatMap s.toList ⟨[], none, none⟩ rfl rest
  have hclose : Quote.close ⟨s.toList.reverse ++ [], none, none⟩ = .whole s := by
    simp [Quote.close, Quote.settled]
  -- the quoted text reads as one token up to the closing quote
  have hfirst : first '"' (s.toList.flatMap Json.escaped ++ '"' :: rest)
      = (.text (.whole s), rest) := by
    show (readText ⟨[], none, none⟩ _).map _ _ = _
    rw [hread, hclose]
    rfl
  have hchars : (Json.quoted s).toList ++ rest
      = '"' :: (s.toList.flatMap Json.escaped ++ '"' :: rest) := by
    simp [Json.quoted]
  rw [hchars, ofChars_cons rfl hfirst]
  rfl

/-! ### Numbers -/

section

variable {rest : List Char} (hrest : Delimited rest)

include hrest

/-- The digits of a number end where the number may end. -/
private theorem takeWhile_append (cs : List Char) :
    (cs ++ rest).takeWhile Char.isDigit = cs.takeWhile Char.isDigit := by
  induction cs with
  | nil =>
    cases rest with
    | nil => rfl
    | cons c rest => exact List.takeWhile_cons_of_neg (by simp [(hrest c rfl).1])
  | cons c cs ih =>
    rw [List.cons_append, List.takeWhile_cons, List.takeWhile_cons, ih]

/-- Behind the digits of a number stands what stood there before, and then the rest. -/
private theorem dropWhile_append (cs : List Char) :
    (cs ++ rest).dropWhile Char.isDigit = cs.dropWhile Char.isDigit ++ rest := by
  induction cs with
  | nil =>
    cases rest with
    | nil => rfl
    | cons c rest => exact List.dropWhile_cons_of_neg (by simp [(hrest c rfl).1])
  | cons c cs ih =>
    rw [List.cons_append, List.dropWhile_cons, List.dropWhile_cons, ih]
    split <;> rfl

omit hrest in

/-- The sign of an exponent does not depend on what follows the exponent. -/
private theorem exponentSign_append {cs : List Char} (h : cs ≠ []) :
    exponentSign (cs ++ rest) = ((exponentSign cs).1, (exponentSign cs).2 ++ rest) := by
  cases cs with
  | nil => exact absurd rfl h
  | cons c cs =>
    rw [List.cons_append]
    unfold exponentSign
    split
    next heq => cases heq; rfl
    next heq => cases heq; rfl
    next hminus hplus =>
      split
      next heq => cases heq; exact absurd rfl (hminus _)
      next heq => cases heq; exact absurd rfl (hplus _)
      next => rfl

/-- An exponent is read alike in front of more characters, which are left over besides. -/
private theorem readExponent_append {negative : Bool} {s : Significand} {plain : Lexeme Number}
    {cs left : List Char} {n : Number}
    (h : readExponent negative s plain cs = (.whole n, left)) :
    readExponent negative s plain (cs ++ rest) = (.whole n, left ++ rest) := by
  cases cs with
  | nil =>
    cases h
    cases rest with
    | nil => rfl
    | cons c rest =>
      obtain ⟨-, -, hlower, hupper⟩ := hrest c rfl
      -- without an exponent the number has to end here, which the rest allows
      exact if_neg (by simp [hlower, hupper])
  | cons c cs =>
    by_cases hc : c = 'e' ∨ c = 'E'
    · simp only [readExponent, List.cons_append, if_pos hc] at h ⊢
      by_cases hcs : cs = []
      · subst hcs
        cases h
      · rw [exponentSign_append hcs, takeWhile_append hrest, dropWhile_append hrest]
        split at h
        · cases h
        next hdigits =>
          rw [if_neg hdigits]
          simp only [Prod.mk.injEq] at h ⊢
          exact ⟨h.1, by rw [h.2]⟩
    · simp only [readExponent, List.cons_append, if_neg hc] at h ⊢
      cases h
      rfl

/-- So are the places behind a point. -/
private theorem readPlaces_append {negative : Bool} {digits cs left : List Char} {n : Number}
    (h : readPlaces negative digits cs = (.whole n, left)) :
    readPlaces negative digits (cs ++ rest) = (.whole n, left ++ rest) := by
  unfold readPlaces at h
  simp only at h
  split at h
  next places =>
    unfold readPlaces
    simp only [List.cons_append]
    split at h
    · cases h
    next hdigits =>
      rw [takeWhile_append hrest, dropWhile_append hrest, if_neg hdigits]
      exact readExponent_append hrest h
  next hpoint =>
    -- what follows a number does not begin with a point
    have hnext : ∀ places, cs ++ rest ≠ '.' :: places := by
      intro places heq
      cases cs with
      | nil =>
        rw [List.nil_append] at heq
        subst heq
        exact (hrest '.' rfl).2.1 rfl
      | cons c cs =>
        cases heq
        exact hpoint cs rfl
    unfold readPlaces
    simp only
    exact readExponent_append hrest h

/-- A number that ends inside a text ends there too if the text goes on. -/
private theorem readNumber_append {negative : Bool} {cs left : List Char} {n : Number}
    (h : readNumber negative cs = (.whole n, left)) :
    readNumber negative (cs ++ rest) = (.whole n, left ++ rest) := by
  unfold readNumber at h ⊢
  rw [takeWhile_append hrest, dropWhile_append hrest]
  split at h
  · cases h
  · cases h
  next => exact readPlaces_append hrest h

omit hrest in
/-- A digit starts a number. -/
theorem first_digit {c : Char} (hc : c.isDigit = true) (cs : List Char) :
    first c cs = (readNumber false (c :: cs)).map .number id := by
  unfold first
  split
  case h_12 => exact if_pos hc
  all_goals cases hc

/-- A number that is the first token is so as well if the text goes on. -/
private theorem first_append {c : Char} {cs left : List Char} {n : Number}
    (h : first c cs = (.number (.whole n), left)) :
    first c (cs ++ rest) = (.number (.whole n), left ++ rest) := by
  -- words give no numbers
  have hword : ∀ {word : String} {token : Token},
      (∀ l, token ≠ .number l) → wordToken word token cs ≠ (.number (.whole n), left) := by
    intro word token htoken heq
    unfold wordToken at heq
    split at heq
    · exact htoken _ (congrArg Prod.fst heq)
    · cases heq
  -- a number that ended with its text ends at the same place before a delimiter
  have hnumber : ∀ {negative : Bool} {cs : List Char},
      (readNumber negative cs).map Token.number id = (.number (.whole n), left) →
      (readNumber negative (cs ++ rest)).map Token.number id
        = (.number (.whole n), left ++ rest) := by
    intro negative cs heq
    have hread : readNumber negative cs = (.whole n, left) := by
      cases hread : readNumber negative cs with
      | mk l r =>
        rw [hread] at heq
        cases heq
        rfl
    rw [readNumber_append hrest hread]
    rfl
  by_cases hdigit : c.isDigit = true
  · rw [first_digit hdigit] at h ⊢
    exact hnumber h
  · unfold first at h
    split at h
    case h_8 => exact hnumber h
    case h_9 | h_10 | h_11 => exact absurd h (hword nofun)
    case h_12 =>
      rw [if_neg hdigit] at h
      cases h
    all_goals cases h

end

/-- Characters without any token are blanks. -/
private theorem ofChars_append_of_nil {left : List Char} (h : ofChars left = [])
    (rest : List Char) : ofChars (left ++ rest) = ofChars rest := by
  induction left with
  | nil => rfl
  | cons c left ih =>
    cases hc : isBlank c with
    | true =>
      rw [ofChars_blank hc] at h
      rw [List.cons_append, ofChars_blank hc, ih h]
    | false =>
      rw [ofChars, if_neg (by simp [hc])] at h
      cases h

/-- **A number is read back** inside a document if it is read back on its own. -/
theorem spells_number {cs : List Char} {n : Number}
    (h : ofChars cs = [.number (.whole n)]) : Spells cs [.number (.whole n)] := by
  intro rest hrest
  induction cs with
  | nil =>
    rw [ofChars] at h
    cases h
  | cons c cs ih =>
    -- blanks in front are passed, the first token is the number
    cases hc : isBlank c with
    | true =>
      rw [ofChars_blank hc] at h
      rw [List.cons_append, ofChars_blank hc, ih h]
    | false =>
      cases hfirst : first c cs with
      | mk token left =>
        rw [ofChars_cons hc hfirst, List.cons.injEq] at h
        obtain ⟨rfl, hleft⟩ := h
        rw [List.cons_append, ofChars_cons hc (first_append hrest hfirst),
          ofChars_append_of_nil hleft]
        rfl

end Token

/-! ### Numbers that are kept -/

deriving instance DecidableEq for Number, Lexeme, Token

namespace Number

/-- A number is kept if its text is read as this number. -/
def IsKept (n : Number) : Prop := Token.ofText n.json = [.number (.whole n)]

instance : DecidablePred IsKept := fun n =>
  inferInstanceAs (Decidable (Token.ofText n.json = [.number (.whole n)]))

/-- No zero stands in front of the digits of a number. -/
private theorem toDigits_eq_cons {n : Nat} (h : 0 < n) :
    ∃ c cs, Nat.toDigits 10 n = c :: cs ∧ c ≠ '0' := by
  induction n using Nat.strongRecOn with
  | _ n ih =>
    by_cases hsmall : n < 10
    · refine ⟨n.digitChar, [], Nat.toDigits_of_lt_base hsmall, ?_⟩
      rw [Ne, Nat.digitChar_eq_zero]
      omega
    · obtain ⟨c, cs, hdigits, hc⟩ := ih (n / 10) (by omega) (by omega)
      refine ⟨c, cs ++ [(n % 10).digitChar], ?_, hc⟩
      rw [Nat.toDigits_of_base_le (by decide) (by omega), hdigits]
      rfl

/-- The digits of a number are digits. -/
private theorem isDigit_of_mem_toDigits {n : Nat} : ∀ c ∈ Nat.toDigits 10 n, c.isDigit = true :=
  fun _ hc => Nat.isDigit_of_mem_toDigits (by decide) (by decide) hc

/-- The digits of a number are read to their end. -/
private theorem readNumber_toDigits (negative : Bool) (n : Nat) :
    Token.readNumber negative (Nat.toDigits 10 n)
      = (Token.wholeNumber negative (Nat.toDigits 10 n), []) := by
  unfold Token.readNumber
  rw [List.takeWhile_eq_self_iff.mpr isDigit_of_mem_toDigits,
    List.dropWhile_eq_nil_iff.mpr isDigit_of_mem_toDigits]
  split
  next h => exact absurd h Nat.toDigits_ne_nil
  next c cs h =>
    cases n with
    | zero => cases h
    | succ n =>
      obtain ⟨_, _, hdigits, hzero⟩ := toDigits_eq_cons (Nat.succ_pos n)
      cases hdigits.symm.trans h
      exact absurd rfl hzero
  next => rfl

/-- The digits of a number stand for that number. -/
private theorem natural_toDigits (n : Nat) : Token.natural (Nat.toDigits 10 n) = n := by
  have hfold : Token.natural (Nat.toDigits 10 n) = Nat.ofDigitChars 10 (Nat.toDigits 10 n) 0 := by
    unfold Token.natural Nat.ofDigitChars
    congr 1
    funext sofar c
    rw [Nat.mul_comm]
    rfl
  rw [hfold, Nat.ofDigitChars_ten_toDigits]

/-- **Integers are kept** if 64 bits can hold them. -/
theorem isKept_whole {n : Int} (hlow : Decimal.signedMin ≤ n) (hhigh : n ≤ Decimal.unsignedMax) :
    (whole n).IsKept := by
  have hread : ∀ {c : Char} {cs : List Char} {l : Lexeme Number},
      Token.isBlank c = false → Token.first c cs = (.number l, []) →
      Token.ofChars (c :: cs) = [.number l] := by
    intro c cs l hc hfirst
    rw [Token.ofChars_cons hc hfirst, Token.ofChars]
  unfold IsKept Token.ofText
  cases n with
  | ofNat n =>
    -- the digits of `n` read as `n`, which is within the range of whole numbers
    have hwhole : Token.wholeNumber false (Nat.toDigits 10 n) = .whole (.whole n) := by
      simp only [Token.wholeNumber, natural_toDigits, Bool.false_eq_true, if_false]
      exact if_pos (Int.ofNat_le.mp hhigh)
    have htext : (whole (Int.ofNat n)).json.toList = Nat.toDigits 10 n := Nat.toList_repr
    obtain ⟨c, cs, hdigits⟩ := List.exists_cons_of_ne_nil (Nat.toDigits_ne_nil (n := n) (b := 10))
    have hc : c.isDigit = true := isDigit_of_mem_toDigits c (hdigits ▸ List.mem_cons_self)
    rw [htext, hdigits]
    refine hread ?_ ?_
    · -- what is blank ends a number
      refine Bool.eq_false_iff.mpr fun hblank => ?_
      have hends : Token.Delimited (c :: cs) := Token.delimited_of_isBlank hblank
      rw [(hends c rfl).1] at hc
      cases hc
    · rw [Token.first_digit hc, ← hdigits, readNumber_toDigits, hwhole]
      rfl
  | negSucc n =>
    -- the sign is read first, then the digits of the absolute value
    have hwhole : Token.wholeNumber true (Nat.toDigits 10 (n + 1))
        = .whole (.whole (Int.negSucc n)) := by
      simp only [Token.wholeNumber, natural_toDigits, if_true]
      rw [if_neg (Nat.succ_ne_zero n), if_pos (by exact_mod_cast hlow)]
      rfl
    have htext : (whole (Int.negSucc n)).json.toList = '-' :: Nat.toDigits 10 (n + 1) := by
      show ("-" ++ (n + 1).repr).toList = _
      rw [String.toList_append, Nat.toList_repr]
      rfl
    rw [htext]
    refine hread rfl ?_
    show (Token.readNumber true _).map _ _ = _
    rw [readNumber_toDigits, hwhole]
    rfl

end Number

end LicenseForecast
