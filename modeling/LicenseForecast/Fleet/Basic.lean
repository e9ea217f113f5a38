import LicenseForecast.Attribute.Readings
import LicenseForecast.Equipment.Basic
import LicenseForecast.Metric.Basic
import LicenseForecast.Product

namespace LicenseForecast

/-!
# Fleets — everything there is to know, scope by scope
-/

/-- A piece of equipment with the values of its attributes. -/
structure Asset extends Equipment where
  attributes : Dictionary Value := .empty
deriving Inhabited

namespace Asset

/-- The asset with another parent. -/
def withParent (a : Asset) (parentId : String) : Asset := { a with parentId := some parentId }

/-- The asset with a value for one more attribute. -/
def withValue (a : Asset) (id : String) (value : Value) : Asset :=
  { a with attributes := a.attributes.insert id value }

/-- The values of an asset as readings. -/
def readings (a : Asset) : Readings := .ofValues a.attributes

end Asset

/-- A product, where it is installed and who uses it. -/
structure InstalledProduct where
  name : String
  tag : String
  /-- The names of the metrics that it is licensed under; none means any. -/
  metrics : List String := []
  equipment : List String := []
  users : List NamedUser := []
deriving DecidableEq, Repr, Inhabited

namespace InstalledProduct

/-- The product without its installations. -/
def product (p : InstalledProduct) : Product := ⟨p.name, p.tag⟩

/-- Whether a product is licensed under the metric of a name. -/
def isLicensedUnder (p : InstalledProduct) (metric : String) : Bool :=
  p.metrics.isEmpty || p.metrics.contains metric

end InstalledProduct

/-- The part of a fleet that belongs to one scope. -/
structure Scope where
  types : List EquipmentType := []
  metrics : List Metric := []
  assets : List Asset := []
  products : List InstalledProduct := []
deriving Inhabited

/-- A whole fleet. -/
structure Fleet where
  scopes : Dictionary Scope := .empty
deriving Inhabited

end LicenseForecast
