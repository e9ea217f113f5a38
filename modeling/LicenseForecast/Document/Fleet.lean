import LicenseForecast.Document.Equipment
import LicenseForecast.Document.Metric
import LicenseForecast.Document.Product
import LicenseForecast.Json.Text
import LicenseForecast.Store

namespace LicenseForecast

/-!
# Fleets and settings in documents
-/

open Reader (needed defaulted)

/-- The fields of an asset. -/
def Asset.fields : List (Reader.Field Asset) :=
  [needed "id" Reader.text fun v a => { a with id := v },
    needed "type" Reader.text fun v a => { a with typeName := v },
    defaulted "parent_id" (Reader.optional Reader.text) fun v a => { a with parentId := v },
    defaulted "attributes" (Reader.dictionary Value.reader) fun v a => { a with attributes := v }]

/-- Reads an asset. -/
def Asset.reader : Reader Asset := Reader.record { id := "", typeName := "" } fields

/-- An asset as a document. -/
def Asset.json (a : Asset) : Json :=
  .object <| [("id", .text a.id), ("type", .text a.typeName)]
    ++ Json.optionalField "parent_id" (a.parentId.map Json.text)
    ++ [("attributes", Dictionary.json Value.json a.attributes)]

/-- The fields of an installed product. -/
def InstalledProduct.fields : List (Reader.Field InstalledProduct) :=
  [needed "name" Reader.text fun v p => { p with name := v },
    needed "tag" Reader.text fun v p => { p with tag := v },
    defaulted "metrics" (Reader.list Reader.text) fun v p => { p with metrics := v },
    defaulted "equipment" (Reader.list Reader.text) fun v p => { p with equipment := v },
    defaulted "users" (Reader.list NamedUser.reader) fun v p => { p with users := v }]

/-- Reads an installed product. -/
def InstalledProduct.reader : Reader InstalledProduct :=
  Reader.record { name := "", tag := "" } fields

/-- An installed product as a document. -/
def InstalledProduct.json (p : InstalledProduct) : Json :=
  .object [("name", .text p.name), ("tag", .text p.tag), ("metrics", .texts p.metrics),
    ("equipment", .texts p.equipment), ("users", .array (p.users.map NamedUser.json))]

/-- The fields of a scope. -/
def Scope.fields : List (Reader.Field Scope) :=
  [defaulted "equipment_types" (Reader.list EquipmentType.reader) fun v s => { s with types := v },
    defaulted "metrics" (Reader.list Metric.reader) fun v s => { s with metrics := v },
    defaulted "equipment" (Reader.list Asset.reader) fun v s => { s with assets := v },
    defaulted "products" (Reader.list InstalledProduct.reader) fun v s => { s with products := v }]

/-- Reads a scope. -/
def Scope.reader : Reader Scope := Reader.record {} fields

/-- A scope as a document. -/
def Scope.json (s : Scope) : Json :=
  .object [("equipment_types", .array (s.types.map EquipmentType.json)),
    ("metrics", .array (s.metrics.map Metric.json)),
    ("equipment", .array (s.assets.map Asset.json)),
    ("products", .array (s.products.map InstalledProduct.json))]

/-- Reads a fleet. -/
def Fleet.reader : Reader Fleet :=
  Reader.record {} [defaulted "scopes" (Reader.dictionary Scope.reader) fun v _ => ⟨v⟩]

/-- A fleet as a document. -/
def Fleet.json (fleet : Fleet) : Json :=
  .object [("scopes", Dictionary.json Scope.json fleet.scopes)]

/-- The fields of settings. -/
def Settings.fields : List (Reader.Field Settings) :=
  [defaulted "snapshot_path" Reader.text fun v s => { s with fleetPath := v },
    defaulted "strict_schema" Reader.flag fun v s => { s with strict := v },
    defaulted "default_scopes" (Reader.list Reader.text) fun v s => { s with defaultScopes := v }]

/-- Reads settings. -/
def Settings.reader : Reader Settings := Reader.record {} fields

/-- Settings as a document. -/
def Settings.json (s : Settings) : Json :=
  .object [("snapshot_path", .text s.fleetPath), ("strict_schema", .bool s.strict),
    ("default_scopes", .texts s.defaultScopes)]

/-! ### Loading -/

/-- The fleet that a text stands for. -/
def Fleet.ofText (text : String) : Except LoadFault Fleet :=
  (Fleet.reader.ofText text).mapError .json

/-- The text of a fleet. -/
def Fleet.text (fleet : Fleet) : String := fleet.json.pretty

/-- The settings that a text stands for. -/
def Settings.ofText (text : String) : Except LoadFault Settings :=
  (Settings.reader.ofText text).mapError .json

section Disk

variable {m : Type → Type} [Monad m] (read : String → m (Except ReadFault String))

/-- What a file stands for. -/
def readAs {α : Type} (ofText : String → Except LoadFault α) (path : String) :
    m (Except LoadFault α) := do
  return ((← read path).mapError (.unreadable path)).bind ofText

/-- The settings in a file. -/
def Settings.ofFile (path : String) : m (Except LoadFault Settings) :=
  readAs read Settings.ofText path

/-- A store that serves the fleet that its settings name. -/
def Store.open (settings : Settings) : m (Except LoadFault Store) := do
  return (← readAs read Fleet.ofText settings.fleetPath).bind (Store.ofFleet settings)

/-- The store with what its file holds by now, if that can be served. -/
def Store.reread (store : Store) : m (Except LoadFault Store) := do
  return (← readAs read Fleet.ofText store.settings.fleetPath).bind store.reload

end Disk

end LicenseForecast
