import LicenseForecast.Context
import LicenseForecast.Metric.Rule

namespace LicenseForecast

/-!
# Failures of a request

* `LookupFault` says why an inventory gives no answer;
* `Failure` says why a forecast could not be made, and `Failure.kind` whose fault that is.
-/

/-- Why a question about a fleet has no answer. -/
inductive LookupFault where
  /-- The equipment asked about does not exist. -/
  | notFound
  /-- It exists, but nothing belongs to it. -/
  | noData
  | backend (text : String)
  | malformed (text : String)
  /-- The search for an answer does not end. -/
  | endless
  /-- A sum on the way to an answer leaves its 64 bits, and the program stops. -/
  | overflow
deriving DecidableEq, Repr, Inhabited

/-- The fault in words. -/
def LookupFault.message : LookupFault → String
  | .notFound => "node not found"
  | .noData => "no data"
  | .backend text => s!"backend failure: {text}"
  | .malformed text => s!"malformed record: {text}"
  | .endless => "no end"
  | .overflow => "attempt to add with overflow"

/-- The questions that can be asked about a fleet. -/
inductive Lookup where
  | equipmentTypes
  | metrics (family : Family)
  | hierarchy
  | products
  | computedLicenses
  | pooledLicenses
  | users
deriving DecidableEq, Repr, Inhabited

/-- The name of a question in messages and logs. -/
def Lookup.name : Lookup → String
  | .equipmentTypes => "equipment_types"
  | .metrics .ops => "list_ops_metrics"
  | .metrics .nup => "list_nup_metrics"
  | .metrics .ips => "list_ips_metrics"
  | .metrics .sps => "list_sps_metrics"
  | .hierarchy => "parents_hierarchy"
  | .products => "products_for_equipment"
  | .computedLicenses => "computed_licenses"
  | .pooledLicenses => "computed_licenses_all"
  | .users => "users_for_equipment"

/-- Why a request fails. -/
inductive Failure where
  | unsupportedFamily (text : String)
  | unknownType (name : String)
  | wrongType (metric requested base : String)
  | invalidMetric (metric : String) (defect : RuleDefect)
  | invalidAttribute (fault : ModelFault)
  | invalidForest (fault : ModelFault)
  | unknownMetric (family : Family) (name : String)
  | ambiguousMetric (family : Family) (name : String) (count : Nat)
  | unknownEquipment (id typeName : String)
  | interrupted (cause : Interruption)
  | lookup (question : Lookup) (fault : LookupFault)
deriving DecidableEq, Repr, Inhabited

namespace Failure

/-- The failure in words. -/
def message : Failure → String
  | .unsupportedFamily text => s!"metric family {text} is not supported for simulation"
  | .unknownType name => s!"equipment type {name} does not exist"
  | .wrongType metric requested base =>
    s!"metric {metric} can only be simulated at type {base}, not {requested}"
  | .invalidMetric metric defect => s!"metric {metric} is not computable: {defect.message}"
  | .invalidAttribute fault => s!"invalid attribute: {fault.message}"
  | .invalidForest fault => s!"invalid equipment type forest: {fault.message}"
  | .unknownMetric family name => s!"metric {name} of family {family.tag} does not exist"
  | .ambiguousMetric family name count =>
    s!"{count} metrics of family {family.tag} are named {name}"
  | .unknownEquipment id typeName => s!"equipment {id} of type {typeName} does not exist"
  | .interrupted .cancelled => "request cancelled"
  | .interrupted .deadlineExceeded => "request deadline exceeded"
  | .lookup question fault => s!"lookup {question.name} failed: {fault.message}"

/-- Whose fault a failure is. -/
inductive Kind where
  | invalidArgument
  | notFound
  | cancelled
  | internal
deriving DecidableEq, Repr, Inhabited

/-- The word for a kind. -/
def Kind.name : Kind → String
  | .invalidArgument => "InvalidArgument"
  | .notFound => "NotFound"
  | .cancelled => "Cancelled"
  | .internal => "Internal"

/-- The kind of a failure. -/
def kind : Failure → Kind
  | .unsupportedFamily _ | .unknownType _ | .wrongType .. | .invalidMetric ..
  | .invalidAttribute _ | .invalidForest _ => .invalidArgument
  | .unknownMetric .. | .unknownEquipment .. => .notFound
  | .interrupted _ => .cancelled
  | .ambiguousMetric .. | .lookup .. => .internal

end Failure

/-- The family that a request names. -/
def Family.ofRequest (text : String) : Except Failure Family :=
  match Family.named? text with
  | some family => .ok family
  | none => .error (.unsupportedFamily text)

/-- The rule of a metric, as far as a request is concerned. -/
def Metric.resolve (f : Forest) (m : Metric) : Except Failure LicenseRule :=
  (m.rule f).mapError (.invalidMetric m.name)

end LicenseForecast
