import LicenseForecast.Decimal.Integer
import LicenseForecast.Json.Reader
import LicenseForecast.Product

namespace LicenseForecast

/-!
# Products in documents
-/

open Decimal (signedMin signedMax)
open Reader (needed defaulted)

/-- The fields of a product. -/
def Product.fields : List (Reader.Field Product) :=
  [needed "name" Reader.text fun v p => { p with name := v },
    defaulted "tag" Reader.text fun v p => { p with tag := v }]

/-- Reads a product. -/
def Product.reader : Reader Product := Reader.record ⟨"", ""⟩ fields

/-- A product as a document. -/
def Product.json (p : Product) : Json := .object [("name", .text p.name), ("tag", .text p.tag)]

/-- The fields of a named user. -/
def NamedUser.fields : List (Reader.Field NamedUser) :=
  [needed "id" Reader.text fun v u => { u with id := v },
    needed "user_id" Reader.text fun v u => { u with userId := v },
    needed "user_count" (Reader.integer signedMin signedMax) fun v u => { u with count := v }]

/-- Reads a named user. -/
def NamedUser.reader : Reader NamedUser := Reader.record ⟨"", "", 0⟩ fields

/-- A named user as a document. -/
def NamedUser.json (u : NamedUser) : Json :=
  .object [("id", .text u.id), ("user_id", .text u.userId), ("user_count", .int u.count)]

end LicenseForecast
