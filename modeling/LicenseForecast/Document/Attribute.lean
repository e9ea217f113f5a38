import LicenseForecast.Attribute.Readings
import LicenseForecast.Json.Reader

namespace LicenseForecast

/-!
# Attributes in documents

The kind of a value is not written: an integer that 64 bits with a sign can hold is an `int`,
any other number a `float`, and a text a `text`.
-/

open Decimal (signedMin signedMax)

/-- The names of the kinds. -/
def ValueKind.choices : List (String × ValueKind) :=
  [ValueKind.int, .float, .text].map fun kind => (kind.name, kind)

/-- Reads a kind. -/
def ValueKind.reader : Reader ValueKind := Reader.choice choices

/-- A kind as a document. -/
def ValueKind.json (kind : ValueKind) : Json := .text kind.name

/-- Reads a value.  All of it has to be sound before its kind is looked at. -/
def Value.reader : Reader Value := fun node => do
  node.pass true
  match node with
  | .number (.whole (.whole n)) =>
    if signedMin ≤ n ∧ n ≤ signedMax then return .int n else return .float (Decimal.ofInt n)
  | .number (.whole (.real x)) => return .float x
  | .text (.whole s) => return .text s
  | _ => throw .mismatch

/-- A value as a document. -/
def Value.json : Value → Json
  | .int n => .int n
  | .float x => .float x
  | .text s => .text s

open Reader (needed defaulted)

/-- The fields of an attribute. -/
def Attribute.fields : List (Reader.Field Attribute) :=
  [needed "id" Reader.text fun v a => { a with id := v },
    needed "name" Reader.text fun v a => { a with name := v },
    needed "data_type" ValueKind.reader fun v a => { a with kind := v },
    defaulted "is_identifier" Reader.flag fun v a => { a with isIdentifier := v },
    defaulted "is_parent_identifier" Reader.flag fun v a => { a with isParentIdentifier := v },
    defaulted "is_searchable" Reader.flag fun v a => { a with isSearchable := v },
    defaulted "is_displayed" Reader.flag fun v a => { a with isDisplayed := v }]

/-- Reads an attribute. -/
def Attribute.reader : Reader Attribute :=
  Reader.record { id := "", name := "", kind := .int } fields

/-- An attribute as a document. -/
def Attribute.json (a : Attribute) : Json :=
  .object [("id", .text a.id), ("name", .text a.name), ("data_type", a.kind.json),
    ("is_identifier", .bool a.isIdentifier),
    ("is_parent_identifier", .bool a.isParentIdentifier),
    ("is_searchable", .bool a.isSearchable), ("is_displayed", .bool a.isDisplayed)]

/-- The fields of an override. -/
def Override.fields : List (Reader.Field Override) :=
  [needed "id" Reader.text fun v o => { o with id := v },
    needed "name" Reader.text fun v o => { o with name := v },
    needed "data_type" ValueKind.reader fun v o => { o with kind := v },
    defaulted "simulated" Reader.flag fun v o => { o with simulated := v },
    defaulted "value" (Reader.optional Value.reader) fun v o => { o with value := v },
    defaulted "old_value" (Reader.optional Value.reader) fun v o => { o with oldValue := v }]

/-- Reads an override. -/
def Override.reader : Reader Override :=
  Reader.record { id := "", name := "", kind := .int } fields

/-- An override as a document.  Values that it lacks are left out. -/
def Override.json (o : Override) : Json :=
  .object <| [("id", .text o.id), ("name", .text o.name), ("data_type", o.kind.json),
    ("simulated", .bool o.simulated)]
    ++ Json.optionalField "value" (o.value.map Value.json)
    ++ Json.optionalField "old_value" (o.oldValue.map Value.json)

/-- The fields of a reading. -/
def Reading.fields : List (Reader.Field Reading) :=
  [needed "name" Reader.text fun v r => { r with name := v },
    needed "value" Value.reader fun v r => { r with value := v },
    needed "simulated" Reader.flag fun v r => { r with simulated := v }]

/-- Reads a reading. -/
def Reading.reader : Reader Reading := Reader.record ⟨"", .int 0, false⟩ fields

/-- A reading as a document. -/
def Reading.json (r : Reading) : Json :=
  .object [("name", .text r.name), ("value", r.value.json), ("simulated", .bool r.simulated)]

/-- A dictionary as a document. -/
def Dictionary.json {α : Type} (item : α → Json) (d : Dictionary α) : Json :=
  .object (d.entries.map fun entry => (entry.1, item entry.2))

/-- Reads readings. -/
def Readings.reader : Reader Readings :=
  Reader.record .empty [needed "entries" (Reader.dictionary Reading.reader) fun v _ => v]

/-- Readings as a document. -/
def Readings.json (readings : Readings) : Json :=
  .object [("entries", Dictionary.json Reading.json readings)]

end LicenseForecast
