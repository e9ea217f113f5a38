import LicenseForecast.Decimal.Integer

namespace LicenseForecast

/-!
# JSON values

A `Json` is a whole document in memory: what a writer is given and what a sound text stands for.
Objects keep the order of their fields.  Integers and other numbers stay apart, since an
attribute value `1` and an attribute value `1.0` are of different kinds.
-/

/-- A number of a document. -/
inductive Number where
  | whole (n : Int)
  | real (x : Float)
deriving Inhabited

/-- The number as a double; integers go to the nearest one. -/
def Number.toFloat : Number → Float
  | .whole n => Decimal.ofInt n
  | .real x => x

/-- A JSON document. -/
inductive Json where
  | null
  | bool (b : Bool)
  | number (n : Number)
  | text (s : String)
  | array (items : List Json)
  | object (fields : List (String × Json))
deriving Inhabited

namespace Json

/-- An integer document. -/
def int (n : Int) : Json := .number (.whole n)

/-- A natural number as a document. -/
def nat (n : Nat) : Json := .number (.whole n)

/-- A double as a document. -/
def float (x : Float) : Json := .number (.real x)

/-- The texts of a list as a document. -/
def texts (l : List String) : Json := .array (l.map .text)

/-- A field that is left out when there is nothing to say. -/
def optionalField (name : String) : Option Json → List (String × Json)
  | none => []
  | some value => [(name, value)]

end Json

end LicenseForecast
