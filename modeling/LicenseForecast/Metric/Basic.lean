import LicenseForecast.Metric.Family

namespace LicenseForecast

/-!
# Metric definitions

A metric names, by id, the attributes that its formula reads and the equipment types at which it
counts.  Each family carries only what its formula needs.
-/

/-- A metric that counts over a pool: the chain of types from the start type up to the end type
    passes the type that is simulated (the base type) and that of the pool's root. -/
structure PooledMetric where
  id : String
  name : String
  coresId : String
  cpusId : String
  coreFactorId : String
  startTypeId : String
  baseTypeId : String
  aggregateTypeId : String
  endTypeId : String
deriving DecidableEq, Repr, Inhabited

/-- A pooled metric that also counts named users. -/
structure UserMetric where
  pooled : PooledMetric
  usersPerProcessor : Nat
deriving DecidableEq, Repr, Inhabited

/-- A metric that counts each piece of equipment on its own. -/
structure DirectMetric where
  id : String
  name : String
  coresId : String
  coreFactorId : String
  baseTypeId : String
deriving DecidableEq, Repr, Inhabited

/-- What a metric of a family consists of. -/
abbrev Family.Spec : Family → Type
  | .ops => PooledMetric
  | .nup => UserMetric
  | .ips => DirectMetric
  | .sps => DirectMetric

/-- A metric of any family. -/
inductive Metric where
  | ops (m : PooledMetric)
  | nup (m : UserMetric)
  | ips (m : DirectMetric)
  | sps (m : DirectMetric)
deriving DecidableEq, Repr, Inhabited

namespace Metric

/-- The metric of a family with the given content. -/
def ofSpec : (family : Family) → family.Spec → Metric
  | .ops, m => .ops m
  | .nup, m => .nup m
  | .ips, m => .ips m
  | .sps, m => .sps m

/-- The content of a metric if it belongs to the family. -/
def spec? : (family : Family) → Metric → Option family.Spec
  | .ops, .ops m => some m
  | .nup, .nup m => some m
  | .ips, .ips m => some m
  | .sps, .sps m => some m
  | _, _ => none

/-- The family of a metric. -/
def family : Metric → Family
  | .ops _ => .ops
  | .nup _ => .nup
  | .ips _ => .ips
  | .sps _ => .sps

/-- The display name of a metric. -/
def name : Metric → String
  | .ops m => m.name
  | .nup m => m.pooled.name
  | .ips m | .sps m => m.name

/-- The id of a metric. -/
def id : Metric → String
  | .ops m => m.id
  | .nup m => m.pooled.id
  | .ips m | .sps m => m.id

/-- The id of the type at which a metric is simulated. -/
def baseTypeId : Metric → String
  | .ops m => m.baseTypeId
  | .nup m => m.pooled.baseTypeId
  | .ips m | .sps m => m.baseTypeId

/-- The pooled content of a metric, if it counts over a pool. -/
def pooled? : Metric → Option PooledMetric
  | .ops m => some m
  | .nup m => some m.pooled
  | .ips _ | .sps _ => none

end Metric

end LicenseForecast
