import LicenseForecast.Document.Rule
import LicenseForecast.Main
import LicenseForecast.Proofs.Fleet.Ending
import LicenseForecast.Proofs.Forecast.Itinerary
import LicenseForecast.Proofs.Forecast.Unchanged
import LicenseForecast.Proofs.Visibility
import LicenseForecast.Proofs.Equipment.Acceptance
import LicenseForecast.Proofs.Equipment.Ancestry
import LicenseForecast.Proofs.Reloads
import LicenseForecast.Proofs.Forecast.OnMetric
import LicenseForecast.Proofs.Repetition
import LicenseForecast.Proofs.Namesakes
import LicenseForecast.Proofs.Merge
import LicenseForecast.Proofs.Hierarchy
import LicenseForecast.Proofs.Fleet.Reach
import LicenseForecast.Proofs.Forecast.Products
import LicenseForecast.Proofs.Attribute.Sides
import LicenseForecast.Proofs.Forecast.Missing
import LicenseForecast.Proofs.Forecast.Relevance
import LicenseForecast.Proofs.Forecast.Nothing
import LicenseForecast.Proofs.Metric.Acceptance
import LicenseForecast.Proofs.Loading
import LicenseForecast.Proofs.Fleet.Parents
import LicenseForecast.Proofs.Json.Reading
import LicenseForecast.Proofs.Document.RoundTrip
import LicenseForecast.Proofs.Chain.Acceptance
import LicenseForecast.Proofs.Fleet.Roots
import LicenseForecast.Proofs.Fleet.Aim
import LicenseForecast.Proofs.Fleet.Total
import LicenseForecast.Proofs.Formula.Users
import LicenseForecast.Proofs.Forecast.Deltas
import LicenseForecast.Proofs.Equipment.Roles
import LicenseForecast.Proofs.Equipment.Circles
import LicenseForecast.Proofs.Metric.Named
import LicenseForecast.Proofs.Fleet.Order
import LicenseForecast.Proofs.Fleet.Search
import LicenseForecast.Proofs.Report.Tree
import LicenseForecast.Proofs.Report.Table
