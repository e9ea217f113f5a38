import LicenseForecast.Fleet.Load
import LicenseForecast.Fleet.Lookup

namespace LicenseForecast

/-!
# Stores — a fleet that is served

A `Store` holds a fleet that has passed its checks.  `Store.inventory` answers questions about
the scopes that a context may see; `Store.reload` serves another fleet or, if that is refused,
keeps the one it has.
-/

/-- How a store is set up. -/
structure Settings where
  /-- Where the fleet is read from. -/
  fleetPath : String := "./fleet.json"
  /-- Whether types that break the rules of attribute roles are refused. -/
  strict : Bool := true
  /-- The scopes of requests that name none. -/
  defaultScopes : List String := []
deriving DecidableEq, Repr, Inhabited

/-- A fleet that is served. -/
structure Store where
  settings : Settings
  fleet : Fleet
  accepted : fleet.check settings.strict = .ok ()

namespace Store

/-- A store that serves a fleet, if the fleet can be served. -/
def ofFleet (settings : Settings) (fleet : Fleet) : Except LoadFault Store :=
  match h : fleet.check settings.strict with
  | .ok () => .ok ⟨settings, fleet, h⟩
  | .error fault => .error fault

/-- The store with another fleet, if that can be served. -/
def reload (store : Store) (fleet : Fleet) : Except LoadFault Store :=
  ofFleet store.settings fleet

/-- The names of all scopes, in order. -/
def scopeNames (store : Store) : List String := store.fleet.scopes.keys

/-- The names of the scopes that a request may see. -/
def visibleNames (store : Store) (scopes : List String) : List String :=
  if scopes.isEmpty then store.settings.defaultScopes else scopes

/-- The scopes that a request may see, in the order in which it names them. -/
def visible (store : Store) (scopes : List String) : List Scope :=
  (store.visibleNames scopes).filterMap store.fleet.scopes.get?

end Store

/-! ### Questions about several scopes -/

/-- The first type of each id, in order; `seen` are ids met before. -/
def EquipmentType.distinctFrom (seen : List String) : List EquipmentType → List EquipmentType
  | [] => []
  | t :: rest =>
    if seen.contains t.id then distinctFrom seen rest else t :: distinctFrom (t.id :: seen) rest

/-- The types of several scopes; of types with the same id the first counts. -/
def Scope.allTypes (scopes : List Scope) : List EquipmentType :=
  EquipmentType.distinctFrom [] (scopes.flatMap (·.types))

/-- The metrics of a family in several scopes. -/
def Scope.allMetrics (scopes : List Scope) (family : Family) : List family.Spec :=
  (scopes.flatMap (·.metrics)).filterMap (Metric.spec? family)

/-- What the first scope that holds some equipment says about it. -/
def Scope.anchored {α : Type} (scopes : List Scope) (id typeName : String)
    (answer : Scope → Except LookupFault α) : Except LookupFault α :=
  match scopes.find? (·.holds id typeName) with
  | none => .error .notFound
  | some s => answer s

/-- The inventory of some scopes. -/
def Scope.inventory (scopes : List Scope) : Inventory
  | .equipmentTypes => .ok (allTypes scopes)
  | .metrics family => .ok (allMetrics scopes family)
  | .hierarchy id typeName depth =>
    anchored scopes id typeName fun s => .ok (s.hierarchy id depth)
  | .products id typeName depth rule =>
    anchored scopes id typeName fun s => s.productsBelow id depth rule.name
  | .computedLicenses id typeName rule =>
    anchored scopes id typeName fun s => s.computedLicenses id rule
  | .pooledLicenses id typeName rule =>
    anchored scopes id typeName fun s => s.pooledLicenses id rule
  | .users id typeName tag depth rule readings =>
    anchored scopes id typeName fun s => s.usersBelow id tag depth rule readings

/-- What a store answers to requests that name the given scopes. -/
def Store.inventory (store : Store) (scopes : List String) : Inventory :=
  Scope.inventory (store.visible scopes)

end LicenseForecast
