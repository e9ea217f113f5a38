import LicenseForecast.Metric.Basic
import LicenseForecast.Report.Style

namespace LicenseForecast.Report

/-!
# The metric catalog

One heading for each family with the number of its metrics, and one line for each metric below.
-/

/-- The heading of a family. -/
def familyLine (color : Bool) (family : Family) (count : Nat) : String :=
  styled color .boldGreen family.shortName ++ " " ++ family.tag ++ " (" ++ toString count ++ ")\n"

/-- The line of a metric. -/
def metricLine (color : Bool) (m : Metric) : String :=
  "  " ++ styled color .bold m.name ++ " [" ++ m.id ++ "]\n"

/-- The part of the catalog about one family. -/
def catalog (color : Bool) (family : Family) (metrics : List Metric) : String :=
  familyLine color family metrics.length ++ String.join (metrics.map (metricLine color))

end LicenseForecast.Report
