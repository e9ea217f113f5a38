import LicenseForecast.Document.Attribute
import LicenseForecast.Document.Product
import LicenseForecast.Forecast

namespace LicenseForecast

/-!
# Requests and forecasts in documents
-/

open Decimal (unsignedMax signedMin signedMax)
open Reader (needed defaulted)

/-- The fields of the figures of a pool. -/
def PoolFigures.fields : List (Reader.Field PoolFigures) :=
  [needed "licenses" (Reader.natural unsignedMax) fun v p => { p with licenses := v },
    needed "fractional" Reader.float fun v p => { p with fractional := v }]

/-- Reads the figures of a pool. -/
def PoolFigures.reader : Reader PoolFigures := Reader.record ⟨0, 0.0⟩ fields

/-- The figures of a pool as a document. -/
def PoolFigures.json (p : PoolFigures) : Json :=
  .object [("licenses", .nat p.licenses), ("fractional", .float p.fractional)]

/-- The fields of a request. -/
def Request.fields : List (Reader.Field Request) :=
  [needed "equip_type" Reader.text fun v r => { r with typeName := v },
    needed "equip_id" Reader.text fun v r => { r with equipmentId := v },
    needed "metric_family" Reader.text fun v r => { r with familyText := v },
    needed "metric_name" Reader.text fun v r => { r with metricName := v },
    defaulted "attributes" (Reader.list Override.reader) fun v r => { r with overrides := v }]

/-- Reads a request. -/
def Request.reader : Reader Request := Reader.record default fields

/-- A request as a document. -/
def Request.json (r : Request) : Json :=
  .object [("equip_type", .text r.typeName), ("equip_id", .text r.equipmentId),
    ("metric_family", .text r.familyText), ("metric_name", .text r.metricName),
    ("attributes", .array (r.overrides.map Override.json))]

/-- The fields of a row. -/
def Row.fields : List (Reader.Field Row) :=
  [needed "metric_name" Reader.text fun v r => { r with metricName := v },
    needed "old_licenses" (Reader.natural unsignedMax) fun v r => { r with oldLicenses := v },
    needed "new_licenses" (Reader.natural unsignedMax) fun v r => { r with newLicenses := v },
    needed "delta" (Reader.integer signedMin signedMax) fun v r => { r with delta := v },
    needed "product" Product.reader fun v r => { r with product := v }]

/-- Reads a row. -/
def Row.reader : Reader Row := Reader.record default fields

/-- A row as a document. -/
def Row.json (r : Row) : Json :=
  .object [("metric_name", .text r.metricName), ("old_licenses", .nat r.oldLicenses),
    ("new_licenses", .nat r.newLicenses), ("delta", .int r.delta), ("product", r.product.json)]

/-- Reads a forecast. -/
def Forecast.reader : Reader Forecast :=
  Reader.record ⟨[]⟩ [needed "licenses" (Reader.list Row.reader) fun v _ => ⟨v⟩]

/-- A forecast as a document. -/
def Forecast.json (f : Forecast) : Json := .object [("licenses", .array (f.rows.map Row.json))]

end LicenseForecast
