namespace LicenseForecast.Text

/-!
# Blanks — white space of any script

`trim` takes the characters with the Unicode property White_Space from both ends of a text.
-/

/-- The ranges of characters with the property White_Space. -/
def blankRanges : List (Nat × Nat) :=
  [(0x9, 0xD), (0x20, 0x20), (0x85, 0x85), (0xA0, 0xA0), (0x1680, 0x1680), (0x2000, 0x200A),
    (0x2028, 0x2029), (0x202F, 0x202F), (0x205F, 0x205F), (0x3000, 0x3000)]

/-- Whether a character is white space. -/
def isBlank (c : Char) : Bool := blankRanges.any fun range => range.1 ≤ c.toNat && c.toNat ≤ range.2

/-- A text without the white space around it. -/
def trim (s : String) : String :=
  String.ofList ((s.toList.dropWhile isBlank).reverse.dropWhile isBlank).reverse

/-- Whether two texts agree but for the case of the letters `a` to `z`. -/
def sameLetters (s t : String) : Bool := s.toList.map Char.toLower == t.toList.map Char.toLower

example : trim "\t ops\u3000" = "ops" := by decide +kernel

example : (blankRanges.map fun range => range.2 + 1 - range.1).sum = 25 := by decide

end LicenseForecast.Text
