import LicenseForecast.Decimal.Integer
import LicenseForecast.Decimal.Layout

namespace LicenseForecast

/-!
# Attributes — what is known of a piece of equipment

* `Value` is one typed value and `ValueKind` its kind;
* `Attribute` declares an attribute of an equipment type and its roles;
* `Override` proposes another value for an attribute.
-/

/-- The kind of a value. -/
inductive ValueKind where
  | int
  | float
  | text
deriving DecidableEq, Repr, Inhabited

/-- The word for a kind. -/
def ValueKind.name : ValueKind → String
  | .int => "int"
  | .float => "float"
  | .text => "string"

/-- A value of an attribute. -/
inductive Value where
  | int (n : Int)
  | float (x : Float)
  | text (s : String)
deriving Inhabited

namespace Value

/-- The kind of a value. -/
def kind : Value → ValueKind
  | .int _ => .int
  | .float _ => .float
  | .text _ => .text

/-- The value as a number to calculate with. -/
def number? : Value → Option Float
  | .int n => some (Decimal.ofInt n)
  | .float x => some x
  | .text _ => none

/-- The value as one of the declared kind: integers may stand for other numbers, and nothing else
    changes its kind. -/
def as? (declared : ValueKind) : Value → Option Value
  | .int n =>
    match declared with
    | .int => some (.int n)
    | .float => some (.float (Decimal.ofInt n))
    | .text => none
  | .float x => if declared = .float then some (.float x) else none
  | .text s => if declared = .text then some (.text s) else none

/-- The value as it stands in a message. -/
def display : Value → String
  | .int n => toString n
  | .float x => Decimal.Layout.plain.text x
  | .text s => s

/-- Values of different kinds differ, and numbers are compared as numbers. -/
protected def beq : Value → Value → Bool
  | .int m, .int n => m == n
  | .float x, .float y => x == y
  | .text s, .text t => s == t
  | _, _ => false

instance : BEq Value := ⟨Value.beq⟩

end Value

/-- An attribute that an equipment type declares. -/
structure Attribute where
  id : String
  name : String
  kind : ValueKind
  isIdentifier : Bool := false
  isParentIdentifier : Bool := false
  isSearchable : Bool := false
  isDisplayed : Bool := false
deriving DecidableEq, Repr, Inhabited

namespace Attribute

/-- The attribute as the identifier of its type; identifiers are displayed. -/
def identifier (a : Attribute) : Attribute := { a with isIdentifier := true, isDisplayed := true }

/-- The attribute as the one that names the parent. -/
def parentIdentifier (a : Attribute) : Attribute := { a with isParentIdentifier := true }

/-- The attribute as one to search by; such attributes are displayed. -/
def searchable (a : Attribute) : Attribute := { a with isSearchable := true, isDisplayed := true }

/-- The attribute as one that is displayed. -/
def displayed (a : Attribute) : Attribute := { a with isDisplayed := true }

end Attribute

/-- A proposal for an attribute: the value observed and, if it is simulated, another one. -/
structure Override where
  id : String
  name : String
  kind : ValueKind
  simulated : Bool := false
  value : Option Value := none
  oldValue : Option Value := none
deriving Inhabited

end LicenseForecast
