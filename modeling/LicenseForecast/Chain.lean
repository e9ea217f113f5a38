import LicenseForecast.Inquiry.Basic

namespace LicenseForecast

/-!
# Chains — from a piece of equipment up to the top of its pools

`Chain.ofAnswer` accepts an answer about the equipment above a machine only if it follows the
types of the forest level by level and reaches the end type of the metric.
-/

/-- The equipment from the one simulated (`base`) up to the end type (`top`).  Link `i` is `i`
    levels above the base, and link `aggregateOffset` is the root of its pool. -/
structure Chain where
  links : List Equipment
  aggregateOffset : Nat
  /-- How many levels below the top products and users are looked for. -/
  productDepth : Nat
deriving DecidableEq, Repr, Inhabited

namespace Chain

/-- The link that is `i` levels above the base. -/
def link (c : Chain) (i : Nat) : Equipment := c.links[i]?.getD default

/-- The equipment that is simulated. -/
def base (c : Chain) : Equipment := c.link 0

/-- The root of its pool. -/
def aggregate (c : Chain) : Equipment := c.link c.aggregateOffset

/-- The equipment of the end type. -/
def top (c : Chain) : Equipment := c.link (c.links.length - 1)

/-- The names of the types from a rule's base type up to its end type. -/
def typeNames (f : Forest) (rule : PooledRule) : List String :=
  ((f.ancestors rule.baseIndex).take (rule.topOffset + 1)).map f.nameOf

/-- The first link that is not of the expected type. -/
def stranger? : List Equipment → List String → Option (Equipment × String)
  | link :: links, name :: names =>
    if link.typeName = name then stranger? links names else some (link, name)
  | _, _ => none

/-- The fault of a link of an unexpected type. -/
def strangerFault (link : Equipment) (expected : String) : LookupFault :=
  .malformed s!"equipment {link.id} has type {link.typeName}, expected {expected}"

/-- The chain in an answer about the equipment above `id`. -/
def ofAnswer (f : Forest) (rule : PooledRule) (id typeName : String)
    (answer : Except LookupFault (List Equipment)) : Except Failure Chain :=
  match answer with
  | .error .notFound => .error (.unknownEquipment id typeName)
  | .error .noData => .error (.unknownEquipment id typeName)
  | .error fault => .error (.lookup .hierarchy fault)
  | .ok found =>
    let names := typeNames f rule
    if found.length < names.length then .error (.unknownEquipment id typeName)
    else
      let links := found.take names.length
      -- an answer about other equipment is no answer
      if (links.head?.map (·.id)) != some id then .error (.unknownEquipment id typeName)
      else
        match stranger? links names with
        | some (link, expected) => .error (.lookup .hierarchy (strangerFault link expected))
        | none => .ok ⟨links, rule.aggregateOffset, min maxDepth (rule.depth + 1)⟩

/-- The chain above a piece of equipment. -/
def above (f : Forest) (rule : PooledRule) (id typeName : String) : Inquiry Chain := do
  Inquiry.look
  let answer ← Inquiry.answer (.hierarchy id typeName rule.depth)
  Inquiry.ofExcept (ofAnswer f rule id typeName answer)

end Chain

end LicenseForecast
