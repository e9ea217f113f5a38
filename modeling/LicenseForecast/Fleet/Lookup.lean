import LicenseForecast.Decimal.Sum
import LicenseForecast.Fleet.Walk
import LicenseForecast.Formula

namespace LicenseForecast.Scope

/-!
# Lookups within one scope

What a scope has to say about products, licences and users below a piece of equipment.
-/

/-! ### Products -/

/-- The ids of an asset and of those up to `depth` levels below it. -/
def within (s : Scope) (id : String) (depth : Nat) : List String :=
  (s.subtree id (some depth)).map (·.id)

/-- The products licensed under a metric that are installed at most `depth` levels below. -/
def productsBelow (s : Scope) (id : String) (depth : Nat) (metric : String) :
    Except LookupFault (List Product) :=
  let reachable := s.within id depth
  let found := s.products.filter fun p =>
    p.equipment.any reachable.contains && p.isLicensedUnder metric
  if found.isEmpty then .error .noData else .ok (found.map (·.product))

/-! ### Licences -/

/-- A failure while an asset was looked at. -/
def assetFault (a : Asset) (failure : Failure) : LookupFault :=
  .malformed s!"equipment {a.id}: {failure.message}"

/-- An asset that has no root of a pool above it. -/
def poolFault (a : Asset) (rule : PooledRule) : LookupFault :=
  .malformed s!"equipment {a.id} has no {rule.aggregate.name} ancestor"

/-- The root of the pool that an asset belongs to, and what the asset contributes to it. -/
def share (s : Scope) (rule : PooledRule) (a : Asset) : Except LookupFault (Asset × Float) := do
  match s.ascend rule.aggregateOffset a with
  | none => throw (poolFault a rule)
  | some pool =>
    return (pool, ← (Formula.contribution rule a.readings).mapError (assetFault a))

/-- The pools with one more contribution. -/
def addShare (pools : Dictionary Float) (share : Asset × Float) : Dictionary Float :=
  pools.insert share.1.id ((pools.get? share.1.id).getD 0.0 + share.2)

/-- The equipment that counts at or below an asset, level by level. -/
def members (s : Scope) (id : String) (rule : PooledRule) : List Asset :=
  (s.subtree id none).filter (·.typeName == rule.base.name)

/-- The pools and contributions of the equipment that counts at or below an asset. -/
def shares (s : Scope) (id : String) (rule : PooledRule) :
    Except LookupFault (List (Asset × Float)) :=
  (s.members id rule).mapM (s.share rule)

/-- The sum of contributions of each pool with equipment at or below an asset, by the id of the
    pool's root.  Contributions are added level by level. -/
def poolSums (s : Scope) (id : String) (rule : PooledRule) :
    Except LookupFault (Dictionary Float) := do
  return (← s.shares id rule).foldl addShare .empty

/-- The licences of all pools below an asset, each rounded up on its own.  The program stops where
    their sum leaves 64 bits. -/
def computedLicenses (s : Scope) (id : String) (rule : PooledRule) : Except LookupFault Nat := do
  let pools ← s.poolSums id rule
  (Decimal.sumUnsigned (pools.values.map Formula.ceilLicenses)).mapError fun _ => .overflow

/-- The figures of the pool that an asset is the root of. -/
def pooledLicenses (s : Scope) (id : String) (rule : PooledRule) :
    Except LookupFault PoolFigures := do
  let pools ← s.poolSums id rule
  let fractional := pools.values.foldl (· + ·) 0.0
  return ⟨Formula.ceilLicenses fractional, fractional⟩

/-! ### Users -/

/-- Whether readings are those of an asset: both carry the same value of the identifier. -/
def isMeant (rule : PooledRule) (readings : Readings) (a : Asset) : Bool :=
  match rule.base.identifier? with
  | none => false
  | some identifier =>
    match readings.value? identifier.id, a.attributes.get? identifier.id with
    | some requested, some stored => requested == stored
    | _, _ => false

/-- The values of an asset, replaced by the readings if those are about the asset. -/
def effectiveReadings (rule : PooledRule) (readings : Readings) (a : Asset) : Readings :=
  if isMeant rule readings a then
    .ofValues <| readings.entries.foldl (fun values entry => values.insert entry.1 entry.2.value)
      a.attributes
  else a.readings

/-- Whether an installation counts: the machine that it runs on, itself or the nearest one of the
    base type above it, still contributes processors.  Where there is no such machine it counts,
    and where the search for it does not end there is never an answer. -/
def isActive (s : Scope) (rule : PooledRule) (readings : Readings) (a : Asset) :
    Except LookupFault Bool :=
  match s.nearest rule.base.name a with
  | none => .error .endless
  | some .ended => .ok true
  | some (.found machine) => do
    let effective := effectiveReadings rule readings machine
    let contribution ← (Formula.contribution rule effective).mapError (assetFault machine)
    return 0.0 < contribution

/-- Whether a product has an installation among the given ids that counts. -/
def isInstalled (s : Scope) (rule : PooledRule) (readings : Readings) (reachable : List String)
    (p : InstalledProduct) : Except LookupFault Bool :=
  ((p.equipment.filter reachable.contains).filterMap s.asset?).anyM (s.isActive rule readings)

/-- The named users of the products with a tag that are licensed under a rule and have an
    installation that counts at most `depth` levels below, each user once. -/
def usersBelow (s : Scope) (id tag : String) (depth : Nat) (rule : PooledRule)
    (readings : Readings) : Except LookupFault (List NamedUser) := do
  let reachable := s.within id depth
  -- products of the same tag share their users
  let products := s.products.filter fun p => p.tag == tag && p.isLicensedUnder rule.name
  let installed ← products.filterM (s.isInstalled rule readings reachable)
  let users := NamedUser.distinct (installed.flatMap (·.users))
  if users.isEmpty then throw .noData
  return users

/-- The equipment above an asset, itself included, at most `depth` levels up. -/
def hierarchy (s : Scope) (id : String) (depth : Nat) : List Equipment :=
  match s.asset? id with
  | none => []
  | some a => (s.climb (depth + 1) a).map (·.toEquipment)

end LicenseForecast.Scope
