import LicenseForecast.Chain
import LicenseForecast.Decimal.Sum
import LicenseForecast.Formula
import LicenseForecast.Inquiry.Metrics

namespace LicenseForecast

/-!
# Forecasts — licences before and after a change

`Request.forecast` computes, for each product affected, the licences before and after the
overrides of a request are applied to one piece of equipment.  Nothing is written.
-/

/-- What a forecast is asked for. -/
structure Request where
  typeName : String
  equipmentId : String
  familyText : String
  metricName : String
  overrides : List Override := []
deriving Inhabited

/-- The licences of one product before and after. -/
structure Row where
  metricName : String
  oldLicenses : Nat
  newLicenses : Nat
  delta : Int
  product : Product
deriving DecidableEq, Repr, Inhabited

/-- The row of a product under the metric of the given name. -/
def Row.of (metricName : String) (product : Product) (old new : Nat) : Row :=
  ⟨metricName, old, new, Formula.difference old new, product⟩

/-- One row for each product, in the order in which the products were found. -/
structure Forecast where
  rows : List Row := []
deriving DecidableEq, Repr, Inhabited

/-- The sum of all differences, row by row.  The program stops where a sum on the way leaves 64 bits
    with a sign. -/
def Forecast.totalDelta (f : Forecast) : Except Decimal.Overflow Int :=
  Decimal.sumSigned (f.rows.map Row.delta)

namespace Request

/-- The type that a request names has to exist. -/
def checkType (f : Forest) (typeName : String) : Except Failure Nat :=
  match f.indexOfName? typeName with
  | some i => .ok i
  | none => .error (.unknownType typeName)

/-- A metric can only be simulated at its base type. -/
def checkBase (rule : LicenseRule) (typeName : String) : Except Failure Unit :=
  if rule.base.name = typeName then .ok ()
  else .error (.wrongType rule.name typeName rule.base.name)

/-- The products at or below a piece of equipment, if there are any. -/
def products (id typeName : String) (depth : Nat) (rule : LicenseRule) :
    Inquiry (Option (List Product)) := do
  Inquiry.look
  Inquiry.seek (.products id typeName depth rule)

/-- The named users of a product, if there are any. -/
def users (chain : Chain) (product : Product) (rule : PooledRule) (readings : Readings) :
    Inquiry (Option (List NamedUser)) := do
  Inquiry.look
  Inquiry.seek
    (.users chain.top.id chain.top.typeName product.tag chain.productDepth rule readings)

/-- The rows of a direct rule. -/
def direct (request : Request) (rule : DirectRule) (old new : Readings) : Inquiry Forecast := do
  let oldLicenses ← Inquiry.ofExcept (Formula.directLicenses rule old)
  let newLicenses ← Inquiry.ofExcept (Formula.directLicenses rule new)
  match ← products request.equipmentId request.typeName 1 (.direct rule) with
  | none => return ⟨[]⟩
  | some products =>
    return ⟨products.map fun product => .of rule.name product oldLicenses newLicenses⟩

/-- The row of a product under a rule for which named users count.  A product whose users are
    known on one side only has none; one without users at all counts its processors. -/
def userRow (rule : PooledRule) (usersPerProcessor : Nat) (splice : Formula.Splice)
    (product : Product) (old new : Option (List NamedUser)) : Option Row :=
  let row (oldUsers newUsers : List NamedUser) : Row :=
    .of rule.name product
      (Formula.userLicenses splice.oldTotal usersPerProcessor oldUsers)
      (Formula.userLicenses splice.newTotal usersPerProcessor newUsers)
  match old, new with
  | some oldUsers, some newUsers => some (row oldUsers newUsers)
  -- nobody uses the product, so its processors count
  | none, none => some (row [] [])
  -- the two sides cannot be compared
  | _, _ => none

/-- The rows of the products of a rule for which named users count. -/
def userRows (rule : PooledRule) (usersPerProcessor : Nat) (splice : Formula.Splice)
    (chain : Chain) (old new : Readings) : List Product → Inquiry (List Row)
  | [] => return []
  | product :: rest => do
    let oldUsers ← users chain product rule old
    let newUsers ← users chain product rule new
    let rows ← userRows rule usersPerProcessor splice chain old new rest
    return (userRow rule usersPerProcessor splice product oldUsers newUsers).toList ++ rows

/-- The users per processor of a rule for which named users count. -/
def threshold? (rule : PooledRule) : Option Nat :=
  if rule.family = .nup then rule.usersPerProcessor else none

/-- The rows of a pooled rule. -/
def pooled (rule : PooledRule) (chain : Chain) (old new : Readings) : Inquiry Forecast := do
  let oldContribution ← Inquiry.ofExcept (Formula.contribution rule old)
  let newContribution ← Inquiry.ofExcept (Formula.contribution rule new)
  let top := chain.top
  match ← products top.id top.typeName chain.productDepth (.pooled rule) with
  | none => return ⟨[]⟩
  | some products =>
    Inquiry.look
    let oldTotal ← Inquiry.demand (.computedLicenses top.id top.typeName rule)
    Inquiry.look
    let aggregate := chain.aggregate
    let pool ← Inquiry.demand (.pooledLicenses aggregate.id aggregate.typeName rule)
    let splice := Formula.splice oldTotal pool oldContribution newContribution
    match threshold? rule with
    | none =>
      return ⟨products.map fun product => .of rule.name product splice.oldTotal splice.newTotal⟩
    | some usersPerProcessor =>
      return ⟨← userRows rule usersPerProcessor splice chain old new products⟩

/-- The licences of each affected product before and after the overrides of a request. -/
def forecast (request : Request) : Inquiry Forecast := do
  -- what the request says on its own is checked before anything is asked
  let family ← Inquiry.ofExcept (Family.ofRequest request.familyText)
  let (old, new) ← Inquiry.ofExcept
    ((Readings.beforeAndAfter request.overrides).mapError .invalidAttribute)
  Inquiry.look
  let types ← Inquiry.demand .equipmentTypes
  let forest ← Inquiry.ofExcept ((Forest.ofTypes types).mapError .invalidForest)
  discard <| Inquiry.ofExcept (checkType forest request.typeName)
  let metric ← Inquiry.metric family request.metricName
  let rule ← Inquiry.ofExcept (metric.resolve forest)
  Inquiry.ofExcept (checkBase rule request.typeName)
  match rule with
  | .direct rule => direct request rule old new
  | .pooled rule =>
    let chain ← Chain.above forest rule request.equipmentId request.typeName
    pooled rule chain old new

end Request

end LicenseForecast
