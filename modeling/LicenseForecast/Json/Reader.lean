import LicenseForecast.Dictionary
import LicenseForecast.Json.Node

namespace LicenseForecast

/-!
# Readers — values of the library out of document trees

A reader walks a tree from left to right and stops at the first thing that it cannot accept.
A record is described by a list of `Field`s and may be written in two ways: as an object, whose
unknown fields are passed over, or as a list of its fields in the order of the description.
-/

/-- What can be read from a document tree. -/
abbrev Reader (α : Type) := Node → Except Fault α

namespace Reader

variable {α β : Type}

/-- A text. -/
def text : Reader String
  | .text s => s.read
  | node => .error node.refusal

/-- A truth value. -/
def flag : Reader Bool
  | .bool b => .ok b
  | node => .error node.refusal

/-- A number of any kind. -/
def number : Reader Number
  | .number n => n.read
  | node => .error node.refusal

/-- An integer between two bounds. -/
def integer (low high : Int) : Reader Int := fun node => do
  match ← number node with
  | .whole n => if low ≤ n ∧ n ≤ high then .ok n else .error .mismatch
  | .real _ => .error .mismatch

/-- A natural number up to a bound. -/
def natural (high : Nat) : Reader Nat := fun node => return (← integer 0 high node).toNat

/-- A double; integers are taken to the nearest one. -/
def float : Reader Float := fun node => return (← number node).toFloat

/-- Something that may be left out by writing `null`. -/
def optional (reader : Reader α) : Reader (Option α)
  | .null => .ok none
  | node => some <$> reader node

/-- A list. -/
def list (reader : Reader α) : Reader (List α)
  | .array items ending => do
    let values ← items.mapM reader
    ending.check
    return values
  | .deep _ => .error .malformed
  | node => .error node.refusal

/-- The entries of an object. -/
def entries (reader : Reader α) (fields : List (Lexeme String × Node)) :
    Except Fault (List (String × α)) :=
  fields.mapM fun (name, node) => return (← name.read, ← reader node)

/-- An object with keys of any name.  Of two fields of the same name the later one counts. -/
def dictionary (reader : Reader α) : Reader (Dictionary α)
  | .object fields ending => do
    let values ← entries reader fields
    ending.check
    return .ofList values
  | .deep _ => .error .malformed
  | node => .error node.refusal

/-! ### Choices -/

/-- The choice of the given name. -/
def choose (choices : List (String × α)) (name : String) : Except Fault α :=
  match choices.find? (·.1 == name) with
  | some choice => .ok choice.2
  | none => .error .mismatch

/-- One of several names, written as a text or as an object whose only field has that name and
    the value `null`. -/
def choice (choices : List (String × α)) : Reader α
  | .text s => do choose choices (← s.read)
  | .object [] (.missing _) => .error .unfinished
  | .object [] _ => .error .malformed
  | .object ((name, node) :: rest) ending => do
    let chosen ← choose choices (← name.read)
    match node with
    | .null => pure ()
    | node => throw node.refusal
    if rest.isEmpty then ending.close else throw .malformed
    return chosen
  | .absent => .error .unfinished
  | _ => .error .malformed

/-! ### Records -/

/-- A field of a record: how its value changes the record. -/
structure Field (α : Type) where
  name : String
  /-- Whether the record needs the field. -/
  required : Bool
  set : Node → α → Except Fault α

/-- A field that a record needs. -/
def needed (name : String) (reader : Reader β) (set : β → α → α) : Field α :=
  ⟨name, true, fun node record => return set (← reader node) record⟩

/-- A field that a record may lack. -/
def defaulted (name : String) (reader : Reader β) (set : β → α → α) : Field α :=
  ⟨name, false, fun node record => return set (← reader node) record⟩

/-- The fields of an object, one after the other; `seen` are the names met so far. -/
def byName (spec : List (Field α)) (seen : List String) (record : α) :
    List (Lexeme String × Node) → Except Fault (List String × α)
  | [] => .ok (seen, record)
  | (name, node) :: rest => do
    match spec.find? (·.name == (← name.read)) with
    | none =>
      node.pass false
      byName spec seen record rest
    | some field =>
      -- the second of two fields of one name is not even looked at
      if seen.contains field.name then throw .mismatch
      byName spec (field.name :: seen) (← field.set node record) rest

/-- The items of a list, each for the next field; the fields without an item come back. -/
def byPosition (record : α) : List (Field α) → List Node → Except Fault (α × List (Field α))
  | [], [] => .ok (record, [])
  | [], _ :: _ => .error .malformed
  | missing, [] => .ok (record, missing)
  | field :: spec, node :: rest => do byPosition (← field.set node record) spec rest

/-- A record that starts as `blank`. -/
def record (blank : α) (spec : List (Field α)) : Reader α
  | .object fields ending => do
    let (seen, value) ← byName spec [] blank fields
    ending.check
    if spec.any fun field => field.required && !seen.contains field.name then throw .mismatch
    return value
  | .array items ending => do
    let (value, missing) ← byPosition blank spec items
    if missing.isEmpty then ending.close
    else
      ending.check
      if missing.any (·.required) then throw .mismatch
    return value
  | .deep _ => .error .malformed
  | node => .error node.refusal

/-! ### Where a document comes from -/

/-- Reads a text.  Nothing but blanks may follow the value. -/
def ofText (reader : Reader α) (s : String) : Except Fault α := do
  let (node, more) := Node.ofText s
  let value ← reader node
  if more then throw .malformed
  return value

/-- Reads a part of a document that is known to be sound, so that only its shape can be wrong. -/
def ofSound (reader : Reader α) (node : Node) : Except Fault α :=
  (reader node).mapError fun _ => .mismatch

end Reader

end LicenseForecast
