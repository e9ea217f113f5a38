import LicenseForecast.Dictionary
import LicenseForecast.ModelFault

namespace LicenseForecast

/-!
# Readings — the values of attributes at one moment

`Readings.beforeAndAfter` turns a list of overrides into two independent sets of readings: the
values observed, and the values as they would be.  Formulas are applied once to each.
-/

/-- What is read of one attribute. -/
structure Reading where
  name : String
  value : Value
  simulated : Bool
deriving Inhabited

/-- The readings of a piece of equipment, by attribute id. -/
abbrev Readings := Dictionary Reading

namespace Override

/-- A value of the override, checked against its declared kind. -/
def checked (o : Override) (value : Value) : Except ModelFault Value :=
  match value.as? o.kind with
  | some value => .ok value
  | none => .error (.kindMismatch o.id o.name o.kind value.kind)

/-- The value observed, or the only one there is. -/
def before (o : Override) : Except ModelFault (Option Value) :=
  (o.oldValue.or o.value).mapM o.checked

/-- The value proposed, if the attribute is simulated and has one, or else the one observed. -/
def after (o : Override) : Except ModelFault (Option Value) :=
  if o.simulated then (o.value.or o.oldValue).mapM o.checked else o.before

end Override

namespace Readings

/-- The readings with one more if the override gives a value. -/
def record (readings : Readings) (o : Override) : Option Value → Readings
  | none => readings
  | some value => readings.insert o.id ⟨o.name, value, o.simulated⟩

/-- Both sides with the readings of one more override. -/
def recordBoth (sides : Readings × Readings) (o : Override) :
    Except ModelFault (Readings × Readings) := do
  let old := sides.1.record o (← o.before)
  let new := sides.2.record o (← o.after)
  return (old, new)

/-- The readings observed and the readings proposed by a list of overrides.  Of two overrides of
    the same attribute the later one counts, and the first value of a wrong kind is reported. -/
def beforeAndAfter (overrides : List Override) : Except ModelFault (Readings × Readings) :=
  overrides.foldlM recordBoth (.empty, .empty)

/-- Plain values as readings that nobody simulates. -/
def ofValues (values : Dictionary Value) : Readings :=
  values.mapValues fun id value => ⟨id, value, false⟩

/-- The value of an attribute. -/
def value? (readings : Readings) (id : String) : Option Value := (readings.get? id).map (·.value)

/-- The number that an attribute holds. -/
def number (readings : Readings) (a : Attribute) : Except ModelFault Float :=
  match readings.value? a.id with
  | none => .error (.missingValue a.id a.name)
  | some value =>
    match value.number? with
    | none => .error (.notNumeric a.id a.name)
    | some x => .ok x

end Readings

end LicenseForecast
