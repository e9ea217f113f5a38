import LicenseForecast.Attribute.Basic

namespace LicenseForecast

/-!
# Faults of the model

What can be wrong with equipment types, attributes and their values, whatever they are used for.
-/

/-- How the attributes of an equipment type break the rules of their roles. -/
inductive RoleFault where
  | nameTwice (name : String)
  | bothIdentifiers (name : String)
  | identifierNotText (name : String)
  | identifierHidden (name : String)
  | parentIdentifierNotText (name : String)
  | searchableHidden (name : String)
  | identifierCount (found : Nat)
  | parentIdentifierCount (found : Nat)
  | parentIdentifierOfRoot
deriving DecidableEq, Repr, Inhabited

/-- The reason in words. -/
def RoleFault.message : RoleFault → String
  | .nameTwice name => s!"attribute name {name} is used twice"
  | .bothIdentifiers name => s!"attribute {name} cannot be both identifier and parent identifier"
  | .identifierNotText name => s!"identifier {name} must be a string"
  | .identifierHidden name => s!"identifier {name} must be displayed"
  | .parentIdentifierNotText name => s!"parent identifier {name} must be a string"
  | .searchableHidden name => s!"searchable attribute {name} must be displayed"
  | .identifierCount found => s!"expected exactly one identifier attribute, found {found}"
  | .parentIdentifierCount found => s!"at most one parent identifier is allowed, found {found}"
  | .parentIdentifierOfRoot => "parent identifier given but the type has no parent"

/-- A fault of the model. -/
inductive ModelFault where
  | duplicateTypeId (id : String)
  | duplicateTypeName (name : String)
  | unknownParent (child parent : String)
  | cycle (name : String)
  | roles (typeName : String) (fault : RoleFault)
  | kindMismatch (id name : String) (declared actual : ValueKind)
  | missingValue (id name : String)
  | notNumeric (id name : String)
  | unsupportedFamily (text : String)
deriving DecidableEq, Repr, Inhabited

/-- The fault in words. -/
def ModelFault.message : ModelFault → String
  | .duplicateTypeId id => s!"duplicate equipment type id: {id}"
  | .duplicateTypeName name => s!"duplicate equipment type name: {name}"
  | .unknownParent child parent => s!"equipment type {child} names unknown parent {parent}"
  | .cycle name => s!"equipment types form a cycle through {name}"
  | .roles typeName fault => s!"invalid schema for equipment type {typeName}: {fault.message}"
  | .kindMismatch id name declared actual =>
    s!"attribute {name} ({id}) declared as {declared.name} but got a {actual.name} value"
  | .missingValue id name => s!"attribute {name} ({id}) carries no value"
  | .notNumeric id name => s!"attribute {name} ({id}) is not numeric"
  | .unsupportedFamily text => s!"unsupported metric family: {text}"

end LicenseForecast
