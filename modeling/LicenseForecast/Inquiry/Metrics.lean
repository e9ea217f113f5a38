import LicenseForecast.Inquiry.Basic

namespace LicenseForecast

/-!
# Asking for metrics

A request names a metric by family and display name, which has to fit exactly one metric.
-/

/-- The only metric of a family with the given name among some metrics. -/
def Metric.only (family : Family) (name : String) (metrics : List Metric) :
    Except Failure Metric :=
  match metrics.filter (·.name == name) with
  | [] => .error (.unknownMetric family name)
  | [m] => .ok m
  | matching => .error (.ambiguousMetric family name matching.length)

namespace Inquiry

/-- All metrics of a family. -/
def metrics (family : Family) : Inquiry (List Metric) := do
  let specs ← demand (.metrics family)
  return specs.map (Metric.ofSpec family)

/-- The only metric of a family with the given name. -/
def metric (family : Family) (name : String) : Inquiry Metric := do
  look
  let all ← metrics family
  ofExcept (Metric.only family name all)

/-- The only metric with the given name in the family that a text names. -/
def metricOfText (familyText name : String) : Inquiry Metric := do
  let family ← ofExcept (Family.ofRequest familyText)
  metric family name

end Inquiry

end LicenseForecast
