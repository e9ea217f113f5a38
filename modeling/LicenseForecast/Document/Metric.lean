import LicenseForecast.Json.Reader
import LicenseForecast.Metric.Basic

namespace LicenseForecast

/-!
# Metrics in documents

A metric is an object with the family under `family` and the fields of that family beside it, or
a list of the family and those fields in their order.  The fields have to be sound before they
are looked at, but the family is judged at once.
-/

open Reader (needed)

/-- The name of a family on its own. -/
def Family.choiceName : Family → String
  | .ops => "Ops"
  | .nup => "Nup"
  | .ips => "Ips"
  | .sps => "Sps"

/-- Reads a family on its own. -/
def Family.reader : Reader Family :=
  Reader.choice (Family.all.map fun family => (family.choiceName, family))

/-- A family on its own as a document. -/
def Family.json (family : Family) : Json := .text family.choiceName

/-- The name of a family inside a metric. -/
def Family.label : Family → String
  | .ops => "ops"
  | .nup => "nup"
  | .ips => "ips"
  | .sps => "sps"

/-- The fields of a pooled metric. -/
def PooledMetric.fields : List (Reader.Field PooledMetric) :=
  [needed "id" Reader.text fun v m => { m with id := v },
    needed "name" Reader.text fun v m => { m with name := v },
    needed "num_cores_attr_id" Reader.text fun v m => { m with coresId := v },
    needed "num_cpu_attr_id" Reader.text fun v m => { m with cpusId := v },
    needed "core_factor_attr_id" Reader.text fun v m => { m with coreFactorId := v },
    needed "start_type_id" Reader.text fun v m => { m with startTypeId := v },
    needed "base_type_id" Reader.text fun v m => { m with baseTypeId := v },
    needed "aggregate_level_type_id" Reader.text fun v m => { m with aggregateTypeId := v },
    needed "end_type_id" Reader.text fun v m => { m with endTypeId := v }]

/-- Reads a pooled metric. -/
def PooledMetric.reader : Reader PooledMetric := Reader.record default fields

/-- The fields of a pooled metric as a document. -/
def PooledMetric.jsonFields (m : PooledMetric) : List (String × Json) :=
  [("id", .text m.id), ("name", .text m.name), ("num_cores_attr_id", .text m.coresId),
    ("num_cpu_attr_id", .text m.cpusId), ("core_factor_attr_id", .text m.coreFactorId),
    ("start_type_id", .text m.startTypeId), ("base_type_id", .text m.baseTypeId),
    ("aggregate_level_type_id", .text m.aggregateTypeId), ("end_type_id", .text m.endTypeId)]

/-- A pooled metric as a document. -/
def PooledMetric.json (m : PooledMetric) : Json := .object m.jsonFields

/-- The most users per processor that a metric can ask for. -/
def UserMetric.maxUsers : Nat := 4294967295

/-- The fields of a metric with named users: those of a pooled metric and the threshold. -/
def UserMetric.fields : List (Reader.Field UserMetric) :=
  (PooledMetric.fields.map fun field =>
    { name := field.name, required := field.required
      set := fun node m => return { m with pooled := ← field.set node m.pooled } })
  ++ [needed "number_of_users" (Reader.natural maxUsers)
    fun v m => { m with usersPerProcessor := v }]

/-- Reads a metric with named users, which cannot be written as a list. -/
def UserMetric.reader : Reader UserMetric
  | .array .. => .error .mismatch
  | node => Reader.record default fields node

/-- A metric with named users as a document. -/
def UserMetric.json (m : UserMetric) : Json :=
  .object (m.pooled.jsonFields ++ [("number_of_users", .nat m.usersPerProcessor)])

/-- The fields of a direct metric. -/
def DirectMetric.fields : List (Reader.Field DirectMetric) :=
  [needed "id" Reader.text fun v m => { m with id := v },
    needed "name" Reader.text fun v m => { m with name := v },
    needed "num_cores_attr_id" Reader.text fun v m => { m with coresId := v },
    needed "core_factor_attr_id" Reader.text fun v m => { m with coreFactorId := v },
    needed "base_type_id" Reader.text fun v m => { m with baseTypeId := v }]

/-- Reads a direct metric. -/
def DirectMetric.reader : Reader DirectMetric := Reader.record default fields

/-- A direct metric as a document. -/
def DirectMetric.json (m : DirectMetric) : Json :=
  .object [("id", .text m.id), ("name", .text m.name), ("num_cores_attr_id", .text m.coresId),
    ("core_factor_attr_id", .text m.coreFactorId), ("base_type_id", .text m.baseTypeId)]

/-- Reads the content of a metric of the given family. -/
def Family.specReader : (family : Family) → Reader family.Spec
  | .ops => PooledMetric.reader
  | .nup => UserMetric.reader
  | .ips => DirectMetric.reader
  | .sps => DirectMetric.reader

/-- The content of a metric of the given family as a document. -/
def Family.specJson : (family : Family) → family.Spec → Json
  | .ops, m => PooledMetric.json m
  | .nup, m => UserMetric.json m
  | .ips, m => DirectMetric.json m
  | .sps, m => DirectMetric.json m

/-! ### Metrics with their family -/

/-- Reads the label of a family. -/
def Family.labelReader : Reader Family := fun node => do
  Reader.choose (Family.all.map fun family => (family.label, family)) (← Reader.text node)

/-- The family among the fields of a metric, and the other fields. -/
def Metric.split (family : Option Family) (others : List (Lexeme String × Node)) :
    List (Lexeme String × Node) → Except Fault (Option Family × List (Lexeme String × Node))
  | [] => .ok (family, others.reverse)
  | (name, node) :: rest => do
    if (← name.read) = "family" then
      if family.isSome then throw .mismatch
      split (some (← Family.labelReader node)) others rest
    else
      node.pass true
      split family ((name, node) :: others) rest

/-- Reads a metric of a family whose other fields are known to be sound. -/
def Metric.ofFields (family : Family) (fields : Node) : Except Fault Metric :=
  return .ofSpec family (← Reader.ofSound family.specReader fields)

/-- Reads a metric. -/
def Metric.reader : Reader Metric
  | .object fields ending => do
    let (family, others) ← split none [] fields
    ending.check
    match family with
    | none => throw .mismatch
    | some family => ofFields family (.object others .closed)
  | .array [] ending => do
    ending.check
    throw .mismatch
  | .array (label :: others) ending => do
    let family ← Family.labelReader label
    Node.passItems true others
    ending.check
    ofFields family (.array others .closed)
  | .deep _ => .error .malformed
  | node => .error node.refusal

/-- A metric as a document: the family first, then its other fields. -/
def Metric.json (m : Metric) : Json :=
  let fields : List (String × Json) :=
    match m with
    | .ops m => m.jsonFields
    | .nup m => m.pooled.jsonFields ++ [("number_of_users", .nat m.usersPerProcessor)]
    | .ips m | .sps m =>
      [("id", .text m.id), ("name", .text m.name), ("num_cores_attr_id", .text m.coresId),
        ("core_factor_attr_id", .text m.coreFactorId), ("base_type_id", .text m.baseTypeId)]
  .object (("family", .text m.family.label) :: fields)

end LicenseForecast
