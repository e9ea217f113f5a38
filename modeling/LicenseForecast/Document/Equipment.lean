import LicenseForecast.Document.Attribute
import LicenseForecast.Equipment.Basic

namespace LicenseForecast

/-!
# Equipment in documents
-/

open Reader (needed defaulted)

/-- The fields of an equipment type. -/
def EquipmentType.fields : List (Reader.Field EquipmentType) :=
  [needed "id" Reader.text fun v t => { t with id := v },
    needed "type" Reader.text fun v t => { t with name := v },
    defaulted "parent_id" (Reader.optional Reader.text) fun v t => { t with parentId := v },
    defaulted "attributes" (Reader.list Attribute.reader) fun v t => { t with attributes := v }]

/-- Reads an equipment type. -/
def EquipmentType.reader : Reader EquipmentType := Reader.record { id := "", name := "" } fields

/-- An equipment type as a document. -/
def EquipmentType.json (t : EquipmentType) : Json :=
  .object <| [("id", .text t.id), ("type", .text t.name)]
    ++ Json.optionalField "parent_id" (t.parentId.map Json.text)
    ++ [("attributes", .array (t.attributes.map Attribute.json))]

/-- The fields of a piece of equipment. -/
def Equipment.fields : List (Reader.Field Equipment) :=
  [needed "id" Reader.text fun v e => { e with id := v },
    needed "type" Reader.text fun v e => { e with typeName := v },
    defaulted "parent_id" (Reader.optional Reader.text) fun v e => { e with parentId := v }]

/-- Reads a piece of equipment. -/
def Equipment.reader : Reader Equipment := Reader.record { id := "", typeName := "" } fields

/-- A piece of equipment as a document. -/
def Equipment.json (e : Equipment) : Json :=
  .object <| [("id", .text e.id), ("type", .text e.typeName)]
    ++ Json.optionalField "parent_id" (e.parentId.map Json.text)

end LicenseForecast
