import LicenseForecast.Attribute.Readings
import LicenseForecast.Failure
import LicenseForecast.Product

namespace LicenseForecast

/-!
# Inquiries — requests that ask about a fleet on the way

A request is written as an `Inquiry`: it asks a `Query`, goes on with the answer, and looks now
and then whether it has been interrupted.  Nothing is said about where the answers come from.
`Inquiry.run` supplies them from an inventory and keeps a record of what was asked, so that the
order of the questions is part of what a request means.
-/

/-- The licences of one pool: the total and the sum of contributions that it was rounded from. -/
structure PoolFigures where
  licenses : Nat
  fractional : Float
deriving Inhabited

/-- A question about a fleet. -/
inductive Query where
  | equipmentTypes
  | metrics (family : Family)
  /-- A piece of equipment and up to `depth` levels above it. -/
  | hierarchy (id typeName : String) (depth : Nat)
  /-- The products installed on a piece of equipment or up to `depth` levels below it. -/
  | products (id typeName : String) (depth : Nat) (rule : LicenseRule)
  /-- The licences computed for all pools below a piece of equipment. -/
  | computedLicenses (id typeName : String) (rule : PooledRule)
  /-- The licences of the pool that a piece of equipment is the root of. -/
  | pooledLicenses (id typeName : String) (rule : PooledRule)
  /-- The named users of a product below a piece of equipment. -/
  | users (id typeName tag : String) (depth : Nat) (rule : PooledRule) (readings : Readings)

namespace Query

/-- What is asked for. -/
def lookup : Query → Lookup
  | .equipmentTypes => .equipmentTypes
  | .metrics family => .metrics family
  | .hierarchy .. => .hierarchy
  | .products .. => .products
  | .computedLicenses .. => .computedLicenses
  | .pooledLicenses .. => .pooledLicenses
  | .users .. => .users

/-- What an answer consists of. -/
abbrev Answer : Query → Type
  | .equipmentTypes => List EquipmentType
  | .metrics family => List family.Spec
  | .hierarchy .. => List Equipment
  | .products .. => List Product
  | .computedLicenses .. => Nat
  | .pooledLicenses .. => PoolFigures
  | .users .. => List NamedUser

end Query

/-- Something that answers every question or says why not. -/
abbrev Inventory := (query : Query) → Except LookupFault query.Answer

/-- A request that asks about a fleet on the way to its result. -/
inductive Inquiry (α : Type) where
  | done (result : Except Failure α)
  /-- Goes on unless the request has been interrupted. -/
  | checkpoint (next : Inquiry α)
  | ask (query : Query) (next : Except LookupFault query.Answer → Inquiry α)

namespace Inquiry

variable {α β : Type}

/-- One request after another. -/
protected def bind : Inquiry α → (α → Inquiry β) → Inquiry β
  | .done (.ok a), f => f a
  | .done (.error failure), _ => .done (.error failure)
  | .checkpoint next, f => .checkpoint (next.bind f)
  | .ask query next, f => .ask query fun answer => (next answer).bind f

/-- Requests can be put one after another. -/
instance : Monad Inquiry where
  pure a := .done (.ok a)
  bind := Inquiry.bind

/-- A result that needs no questions. -/
def ofExcept (result : Except Failure α) : Inquiry α := .done result

/-- Asks a question and goes on with the answer, whatever it is. -/
def answer (query : Query) : Inquiry (Except LookupFault query.Answer) :=
  .ask query fun answer => .done (.ok answer)

/-- Fails unless there is an answer. -/
def require (query : Query) : Except LookupFault query.Answer → Inquiry query.Answer
  | .ok answer => pure answer
  | .error fault => .done (.error (.lookup query.lookup fault))

/-- Asks a question that must have an answer. -/
def demand (query : Query) : Inquiry query.Answer := do
  require query (← answer query)

/-- Asks a question to which the answer may be that there is nothing. -/
def seek (query : Query) : Inquiry (Option query.Answer) := do
  match ← answer query with
  | .error .noData => pure none
  | result => some <$> require query result

/-- Looks for an interruption. -/
def look : Inquiry Unit := .checkpoint (pure ())

/-! ### Running a request -/

/-- What a request finds when it looks around after some number of questions. -/
structure World where
  inventory : Nat → Inventory
  interruption : Nat → Option Interruption

/-- A world in which nothing changes. -/
def World.still (inventory : Inventory) (interruption : Option Interruption := none) : World :=
  ⟨fun _ => inventory, fun _ => interruption⟩

/-- The questions that a request asks after `asked` earlier ones, and its result. -/
def run (world : World) (asked : Nat) : Inquiry α → List Query × Except Failure α
  | .done result => ([], result)
  | .checkpoint next =>
    match world.interruption asked with
    | some cause => ([], .error (.interrupted cause))
    | none => run world asked next
  | .ask query next =>
    let (queries, result) := run world (asked + 1) (next (world.inventory asked query))
    (query :: queries, result)

/-- The result of a request in a world in which nothing changes. -/
def result (inventory : Inventory) (interruption : Option Interruption) (inquiry : Inquiry α) :
    Except Failure α :=
  (inquiry.run (.still inventory interruption) 0).2

end Inquiry

end LicenseForecast
