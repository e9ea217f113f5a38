import LicenseForecast.Equipment.Basic

namespace LicenseForecast

/-!
# Type forests — equipment types and their parents

The types of a request are kept in their given order and addressed by their index.
`Forest.ofTypes` accepts exactly the lists in which ids and names are distinct, every parent is
listed and no type lies above itself; the parent of a type is then found by its index alone.

* `Forest.ascend` — some steps up from a type;
* `Forest.ancestors` — a type and all above it;
* `Forest.distance` — the steps from a type up to another.
-/

/-- Equipment types with the index of each type's parent. -/
structure Forest where
  types : Array EquipmentType
  parents : Array (Option Nat)
deriving Inhabited

namespace Forest

/-! ### Walking up -/

/-- The index of the parent of a type. -/
def parentOf (f : Forest) (i : Nat) : Option Nat := f.parents[i]?.join

/-- The type that is `n` steps above type `i`. -/
def ascend (f : Forest) : Nat → Nat → Option Nat
  | 0, i => some i
  | n + 1, i => (f.parentOf i).bind (f.ascend n)

/-- Type `i` and the types above it, up to `n` of them in all. -/
def climb (f : Forest) : Nat → Nat → List Nat
  | 0, _ => []
  | n + 1, i =>
    i :: match f.parentOf i with
      | none => []
      | some p => f.climb n p

/-- Type `i` and all types above it, bottom up.  There are no more of them than types. -/
def ancestors (f : Forest) (i : Nat) : List Nat := f.climb f.types.size i

/-- The steps from type `i` up to type `j`, if `j` is type `i` or lies above it. -/
def distance (f : Forest) (i j : Nat) : Option Nat := (f.ancestors i).idxOf? j

/-- Whether type `j` is type `i` or lies above it. -/
def reaches (f : Forest) (i j : Nat) : Bool := (f.distance i j).isSome

/-! ### Looking up -/

/-- The type with an index. -/
def get? (f : Forest) (i : Nat) : Option EquipmentType := f.types[i]?

/-- The name of the type with an index, and the empty text for an index out of range. -/
def nameOf (f : Forest) (i : Nat) : String := ((f.get? i).map (·.name)).getD ""

/-- The index of the type with an id. -/
def indexOfId? (f : Forest) (id : String) : Option Nat := f.types.findIdx? (·.id == id)

/-- The index of the type with a name. -/
def indexOfName? (f : Forest) (name : String) : Option Nat := f.types.findIdx? (·.name == name)

/-- The type with an id. -/
def withId? (f : Forest) (id : String) : Option EquipmentType := f.types.find? (·.id == id)

/-- The type with a name. -/
def withName? (f : Forest) (name : String) : Option EquipmentType :=
  f.types.find? (·.name == name)

/-- The indices of the types without a parent. -/
def roots (f : Forest) : List Nat :=
  (List.range f.types.size).filter fun i => (f.parentOf i).isNone

/-- The indices of the types right below type `i`. -/
def children (f : Forest) (i : Nat) : List Nat :=
  (List.range f.types.size).filter fun j => f.parentOf j == some i

/-! ### Building -/

/-- The first type that repeats an id or a name of an earlier one. -/
def duplicate? (earlier : List EquipmentType) : List EquipmentType → Option ModelFault
  | [] => none
  | t :: rest =>
    if earlier.any (·.id == t.id) then some (.duplicateTypeId t.id)
    else if earlier.any (·.name == t.name) then some (.duplicateTypeName t.name)
    else duplicate? (t :: earlier) rest

/-- The index of the parent that a type names, if it names one. -/
def findParent (types : Array EquipmentType) (t : EquipmentType) :
    Except ModelFault (Option Nat) :=
  match t.parentId with
  | none => .ok none
  | some id =>
    if id.isEmpty then .ok none
    else
      match types.findIdx? (·.id == id) with
      | some i => .ok (some i)
      | none => .error (.unknownParent t.name id)

/-- The first type from which one can climb more steps than there are types. -/
def endless? (f : Forest) : Option EquipmentType :=
  ((List.range f.types.size).find? fun i => (f.ascend (f.types.size + 1) i).isSome).bind f.get?

/-- The forest of a list of types.  A repeated id or name is reported before an unknown parent,
    and an unknown parent before a cycle. -/
def ofTypes (types : List EquipmentType) : Except ModelFault Forest := do
  if let some fault := duplicate? [] types then throw fault
  -- ids are distinct from here on, so a parent is found by its id alone
  let parents ← types.mapM (findParent types.toArray)
  let forest : Forest := ⟨types.toArray, parents.toArray⟩
  if let some t := forest.endless? then throw (.cycle t.name)
  return forest

end Forest

end LicenseForecast
