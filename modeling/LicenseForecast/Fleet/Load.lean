import LicenseForecast.Equipment.Forest
import LicenseForecast.Files.Fault
import LicenseForecast.Fleet.Walk
import LicenseForecast.Json.Token

namespace LicenseForecast

/-!
# Checks on loading a fleet

`Fleet.check` says whether a fleet can be served.  The first scope in name order that cannot is
reported, and within it its types before their attribute roles before its assets.
-/

/-- What is wrong with a document, for readers. -/
def Fault.message : Fault → String
  | .malformed => "the text is not JSON"
  | .unfinished => "the text ends too early"
  | .mismatch => "a value is not of the expected form"

/-- Why a fleet or its settings cannot be loaded. -/
inductive LoadFault where
  | unreadable (path : String) (fault : ReadFault)
  | json (fault : Fault)
  | types (scope : String) (fault : ModelFault)
  | roles (scope : String) (fault : ModelFault)
  | unknownType (scope id typeName : String)
  | duplicateEquipment (scope id : String)
deriving DecidableEq, Repr, Inhabited

/-- The fault in words. -/
def LoadFault.message : LoadFault → String
  | .unreadable path fault => s!"failed to read {path}: {fault.message}"
  | .json fault => s!"malformed JSON: {fault.message}"
  | .types scope fault => s!"scope {scope}: invalid equipment types: {fault.message}"
  | .roles scope fault => s!"scope {scope}: {fault.message}"
  | .unknownType scope id typeName => s!"scope {scope}: equipment {id} has unknown type {typeName}"
  | .duplicateEquipment scope id => s!"scope {scope}: equipment {id} appears twice"

/-- What lies behind the fault, in words of its own. -/
def LoadFault.reason? : LoadFault → Option String
  | .unreadable _ fault => some fault.message
  | .json fault => some fault.message
  | .types _ fault | .roles _ fault => some fault.message
  | .unknownType .. | .duplicateEquipment .. => none

namespace Scope

/-- The first asset of an unknown type or with the id of an earlier one; `earlier` are the ids
    before it. -/
def assetFault? (name : String) (forest : Forest) (earlier : List String) :
    List Asset → Option LoadFault
  | [] => none
  | a :: rest =>
    if (forest.withName? a.typeName).isNone then some (.unknownType name a.id a.typeName)
    else if earlier.contains a.id then some (.duplicateEquipment name a.id)
    else assetFault? name forest (a.id :: earlier) rest

/-- Whether the scope of the given name can be served.  Attribute roles count only if `strict`. -/
def check (name : String) (strict : Bool) (s : Scope) : Except LoadFault Unit := do
  let forest ← (Forest.ofTypes s.types).mapError (.types name)
  if strict then s.types.forM fun t => t.checkRoles.mapError (.roles name)
  match assetFault? name forest [] s.assets with
  | some fault => throw fault
  | none => return ()

end Scope

/-- Whether a fleet can be served. -/
def Fleet.check (strict : Bool) (fleet : Fleet) : Except LoadFault Unit :=
  fleet.scopes.entries.forM fun entry => entry.2.check entry.1 strict

end LicenseForecast
