import LicenseForecast.Equipment.Forest
import LicenseForecast.Metric.Basic

namespace LicenseForecast

/-!
# Licensing rules — metrics resolved against a forest

A metric only names types and attributes by id.  `Metric.rule` looks them up, checks the order of
the types and yields a `LicenseRule`, which formulas and lookups can use directly.
-/

/-- The types that a metric names. -/
inductive Anchor where
  | start
  | base
  | aggregation
  | top
deriving DecidableEq, Repr, Inhabited

/-- The word for an anchor. -/
def Anchor.name : Anchor → String
  | .start => "start"
  | .base => "base"
  | .aggregation => "aggregation"
  | .top => "end"

/-- Why a metric yields no rule. -/
inductive RuleDefect where
  | unknownType (anchor : Anchor) (id : String)
  | notAbove (upper lower : String)
  | outOfReach (upper lower : String)
  | aggregationAboveTop
  | tooDeep
  | undefinedAttribute (id typeName : String)
  | textAttribute (name : String)
deriving DecidableEq, Repr, Inhabited

/-- The defect in words. -/
def RuleDefect.message : RuleDefect → String
  | .unknownType anchor id => s!"{anchor.name} type {id} does not exist"
  | .notAbove upper lower => s!"{upper} is not an ancestor-or-self of {lower}"
  | .outOfReach upper lower => s!"{upper} is not reachable from {lower}"
  | .aggregationAboveTop => "aggregation level lies above the end type"
  | .tooDeep => "type chain is too deep"
  | .undefinedAttribute id typeName => s!"attribute {id} is not defined on {typeName}"
  | .textAttribute name => s!"attribute {name} is not numeric"

/-- A pooled metric with its types and attributes. -/
structure PooledRule where
  family : Family
  name : String
  start : EquipmentType
  base : EquipmentType
  aggregate : EquipmentType
  top : EquipmentType
  cores : Attribute
  cpus : Attribute
  coreFactor : Attribute
  /-- The users that each processor stands for, where named users count. -/
  usersPerProcessor : Option Nat
  /-- The index of the base type in its forest. -/
  baseIndex : Nat
  /-- The steps from the base type up to the root of a pool. -/
  aggregateOffset : Nat
  /-- The steps from the base type up to the end type. -/
  topOffset : Nat
  /-- The steps from the start type up to the end type. -/
  depth : Nat
deriving DecidableEq, Repr, Inhabited

/-- A direct metric with its type and attributes. -/
structure DirectRule where
  family : Family
  name : String
  base : EquipmentType
  cores : Attribute
  coreFactor : Attribute
deriving DecidableEq, Repr, Inhabited

/-- A metric ready to be computed. -/
inductive LicenseRule where
  | pooled (r : PooledRule)
  | direct (r : DirectRule)
deriving DecidableEq, Repr, Inhabited

namespace LicenseRule

/-- The family of a rule. -/
def family : LicenseRule → Family
  | .pooled r => r.family
  | .direct r => r.family

/-- The display name of a rule's metric. -/
def name : LicenseRule → String
  | .pooled r => r.name
  | .direct r => r.name

/-- The type at which a rule is simulated. -/
def base : LicenseRule → EquipmentType
  | .pooled r => r.base
  | .direct r => r.base

end LicenseRule

/-- The most levels that a lookup can be asked for. -/
def maxDepth : Nat := 255

namespace Forest

/-- The index of the type that a metric names. -/
def anchor (f : Forest) (role : Anchor) (id : String) : Except RuleDefect Nat :=
  match f.indexOfId? id with
  | some i => .ok i
  | none => .error (.unknownType role id)

/-- The steps from type `lower` up to type `upper`. -/
def steps (f : Forest) (defect : String → String → RuleDefect) (lower upper : Nat) :
    Except RuleDefect Nat :=
  match f.distance lower upper with
  | some n => .ok n
  | none => .error (defect (f.nameOf upper) (f.nameOf lower))

end Forest

/-- The attribute of a type that a metric names.  It has to hold numbers. -/
def EquipmentType.numeric (t : EquipmentType) (id : String) : Except RuleDefect Attribute :=
  match t.attribute? id with
  | none => .error (.undefinedAttribute id t.name)
  | some a => if a.kind = .text then .error (.textAttribute a.name) else .ok a

/-- The rule of a pooled metric. -/
def PooledMetric.rule (f : Forest) (family : Family) (usersPerProcessor : Option Nat)
    (m : PooledMetric) : Except RuleDefect PooledRule := do
  let start ← f.anchor .start m.startTypeId
  let base ← f.anchor .base m.baseTypeId
  let aggregate ← f.anchor .aggregation m.aggregateTypeId
  let top ← f.anchor .top m.endTypeId
  discard <| f.steps .notAbove start base
  let aggregateOffset ← f.steps .notAbove base aggregate
  let topOffset ← f.steps .notAbove base top
  -- both lie above the base type, so the distances tell which of them is higher
  if topOffset < aggregateOffset then throw .aggregationAboveTop
  let depth ← f.steps .outOfReach start top
  if maxDepth < depth then throw .tooDeep
  let baseType := (f.get? base).getD default
  return {
    family, usersPerProcessor, aggregateOffset, topOffset, depth
    name := m.name
    start := (f.get? start).getD default
    base := baseType
    aggregate := (f.get? aggregate).getD default
    top := (f.get? top).getD default
    cores := ← baseType.numeric m.coresId
    cpus := ← baseType.numeric m.cpusId
    coreFactor := ← baseType.numeric m.coreFactorId
    baseIndex := base }

/-- The rule of a direct metric. -/
def DirectMetric.rule (f : Forest) (family : Family) (m : DirectMetric) :
    Except RuleDefect DirectRule := do
  match f.withId? m.baseTypeId with
  | none => throw (.unknownType .base m.baseTypeId)
  | some base =>
    return {
      family, base
      name := m.name
      cores := ← base.numeric m.coresId
      coreFactor := ← base.numeric m.coreFactorId }

/-- The rule of a metric. -/
def Metric.rule (f : Forest) : Metric → Except RuleDefect LicenseRule
  | .ops m => .pooled <$> m.rule f .ops none
  | .nup m => .pooled <$> m.pooled.rule f .nup (some m.usersPerProcessor)
  | .ips m => .direct <$> m.rule f .ips
  | .sps m => .direct <$> m.rule f .sps

end LicenseForecast
