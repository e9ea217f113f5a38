import LicenseForecast.Decimal.Layout
import LicenseForecast.Json.Basic

namespace LicenseForecast

/-!
# JSON text — documents written out

* `Json.compact` writes a document without any blanks;
* `Json.pretty` gives every item and field a line of its own, two spaces per level, and writes
  empty lists and objects as `[]` and `\x7b\x7d`.

In a quoted text only the quote, the backslash and the characters below the blank are escaped.
-/

namespace Json

/-- A digit of a `\u` escape. -/
def hexDigit (n : Nat) : Char := if n < 10 then Char.ofNat (48 + n) else Char.ofNat (87 + n)

/-- How one character stands in a quoted text. -/
def escaped (c : Char) : List Char :=
  if c = '"' then ['\\', '"']
  else if c = '\\' then ['\\', '\\']
  else if c = '\x08' then ['\\', 'b']
  else if c = '\x0c' then ['\\', 'f']
  else if c = '\n' then ['\\', 'n']
  else if c = '\r' then ['\\', 'r']
  else if c = '\t' then ['\\', 't']
  else if c.toNat < 32 then ['\\', 'u', '0', '0', hexDigit (c.toNat / 16), hexDigit (c.toNat % 16)]
  else [c]

/-- A text in quotes. -/
def quoted (s : String) : String := String.ofList ('"' :: s.toList.flatMap escaped ++ ['"'])

end Json

/-- The text of a number.  A double that is not finite has none and is written as `null`. -/
def Number.json : Number → String
  | .whole n => toString n
  | .real x => if x.isFinite then Decimal.Layout.json.text x else "null"

namespace Json

mutual
/-- The shortest text of a document. -/
def compact : Json → String
  | .null => "null"
  | .bool b => if b then "true" else "false"
  | .number n => n.json
  | .text s => quoted s
  | .array items => "[" ++ ",".intercalate (compactItems items) ++ "]"
  | .object fields => "\x7b" ++ ",".intercalate (compactFields fields) ++ "\x7d"

/-- The texts of the items of a list. -/
def compactItems : List Json → List String
  | [] => []
  | item :: rest => item.compact :: compactItems rest

/-- The texts of the fields of an object. -/
def compactFields : List (String × Json) → List String
  | [] => []
  | (name, value) :: rest => (quoted name ++ ":" ++ value.compact) :: compactFields rest
end

/-- Two spaces for each level. -/
def indent (level : Nat) : String := String.ofList (List.replicate (2 * level) ' ')

/-- Lines of one level between an opening and a closing bracket. -/
def block (opening closing : String) (level : Nat) (lines : List String) : String :=
  if lines.isEmpty then opening ++ closing
  else
    let inner := "\n" ++ indent (level + 1)
    opening ++ inner ++ ("," ++ inner).intercalate lines ++ "\n" ++ indent level ++ closing

mutual
/-- The text of a document that stands at the given level. -/
def prettyAt (level : Nat) : Json → String
  | .null => "null"
  | .bool b => if b then "true" else "false"
  | .number n => n.json
  | .text s => quoted s
  | .array items => block "[" "]" level (prettyItems (level + 1) items)
  | .object fields => block "\x7b" "\x7d" level (prettyFields (level + 1) fields)

/-- The texts of the items of a list. -/
def prettyItems (level : Nat) : List Json → List String
  | [] => []
  | item :: rest => item.prettyAt level :: prettyItems level rest

/-- The texts of the fields of an object. -/
def prettyFields (level : Nat) : List (String × Json) → List String
  | [] => []
  | (name, value) :: rest =>
    (quoted name ++ ": " ++ value.prettyAt level) :: prettyFields level rest
end

/-- The text of a document for human readers. -/
def pretty (j : Json) : String := j.prettyAt 0

end Json

end LicenseForecast
