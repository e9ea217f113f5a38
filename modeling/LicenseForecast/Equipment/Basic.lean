import LicenseForecast.ModelFault

namespace LicenseForecast

/-!
# Equipment and its types

An `EquipmentType` declares attributes and may name a parent type; an `Equipment` is one machine,
partition, cluster … of a type.  `EquipmentType.checkRoles` holds the rules for attribute roles.
-/

/-- A type of equipment.  An empty parent id means the same as none, except to `checkRoles`. -/
structure EquipmentType where
  id : String
  name : String
  parentId : Option String := none
  attributes : List Attribute := []
deriving DecidableEq, Repr, Inhabited

/-- One piece of equipment as a lookup returns it. -/
structure Equipment where
  id : String
  typeName : String
  parentId : Option String := none
deriving DecidableEq, Repr, Inhabited

namespace EquipmentType

/-- The first attribute with the given id. -/
def attribute? (t : EquipmentType) (id : String) : Option Attribute :=
  t.attributes.find? (·.id == id)

/-- The first attribute with the given name. -/
def attributeNamed? (t : EquipmentType) (name : String) : Option Attribute :=
  t.attributes.find? (·.name == name)

/-- The first attribute that identifies equipment of this type. -/
def identifier? (t : EquipmentType) : Option Attribute :=
  t.attributes.find? (·.isIdentifier)

end EquipmentType

/-! ### Attribute roles -/

/-- How a single attribute breaks the rules of its roles. -/
def Attribute.roleFault? (a : Attribute) : Option RoleFault :=
  if a.isIdentifier && a.isParentIdentifier then some (.bothIdentifiers a.name)
  else if a.isIdentifier && a.kind != .text then some (.identifierNotText a.name)
  else if a.isIdentifier && !a.isDisplayed then some (.identifierHidden a.name)
  else if a.isParentIdentifier && a.kind != .text then some (.parentIdentifierNotText a.name)
  else if a.isSearchable && !a.isDisplayed then some (.searchableHidden a.name)
  else none

namespace EquipmentType

/-- The first attribute that repeats a name or breaks a rule; `seen` are the names before it. -/
def attributeFault? (seen : List String) : List Attribute → Option RoleFault
  | [] => none
  | a :: rest =>
    if seen.contains a.name then some (.nameTwice a.name)
    else a.roleFault?.or (attributeFault? (a.name :: seen) rest)

/-- How the attributes of a type break the rules of their roles. -/
def roleFault? (t : EquipmentType) : Option RoleFault :=
  let identifiers := t.attributes.countP (·.isIdentifier)
  let parentIdentifiers := t.attributes.countP (·.isParentIdentifier)
  (attributeFault? [] t.attributes).or <|
    if identifiers != 1 then some (.identifierCount identifiers)
    else if 1 < parentIdentifiers then some (.parentIdentifierCount parentIdentifiers)
    else if parentIdentifiers == 1 && t.parentId.isNone then some .parentIdentifierOfRoot
    else none

/-- Refuses a type whose attributes break the rules of their roles. -/
def checkRoles (t : EquipmentType) : Except ModelFault Unit :=
  match t.roleFault? with
  | some fault => .error (.roles t.name fault)
  | none => .ok ()

end EquipmentType

end LicenseForecast
