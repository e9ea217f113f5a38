import LicenseForecast.Document.Equipment
import LicenseForecast.Document.Metric
import LicenseForecast.Metric.Rule

namespace LicenseForecast

/-!
# Licensing rules in documents
-/

/-- A pooled rule as a document. -/
def PooledRule.json (r : PooledRule) : Json :=
  .object [("kind", .text "pooled"), ("family", r.family.json), ("name", .text r.name),
    ("start", r.start.json), ("base", r.base.json), ("aggregate", r.aggregate.json),
    ("end", r.top.json), ("num_cores_attr", r.cores.json), ("num_cpu_attr", r.cpus.json),
    ("core_factor_attr", r.coreFactor.json),
    ("number_of_users", (r.usersPerProcessor.map Json.nat).getD .null),
    ("aggregate_offset", .nat r.aggregateOffset), ("top_offset", .nat r.topOffset),
    ("traversal_depth", .nat r.depth)]

/-- A direct rule as a document. -/
def DirectRule.json (r : DirectRule) : Json :=
  .object [("kind", .text "direct"), ("family", r.family.json), ("name", .text r.name),
    ("base", r.base.json), ("num_cores_attr", r.cores.json),
    ("core_factor_attr", r.coreFactor.json)]

/-- A rule as a document. -/
def LicenseRule.json : LicenseRule → Json
  | .pooled r => r.json
  | .direct r => r.json

end LicenseForecast
