import LicenseForecast.Inquiry.Basic

namespace LicenseForecast.Formula

/-!
# Licence formulas

* Direct families count each machine on its own: its cores times its core factor, rounded down.
* Pooled families add up cores times processors times core factor over a pool and round the pool
  up once.  A simulation exchanges one contribution within its pool and rounds only that pool
  again; the other pools keep their totals.
* Where named users count, each distinct user stands for at least the processor licences times
  the users per processor.

Licences are natural numbers of at most 64 bits.
-/

open Decimal (unsignedMax signedMax)

/-- Contributions closer than this count as equal, and sums this close to a whole number are
    rounded to it. -/
def tolerance : Float := 1e-9

/-- A sum of contributions rounded up.  What is not a positive finite number counts as zero. -/
def ceilLicenses (x : Float) : Nat :=
  if !x.isFinite || x ≤ 0.0 then 0 else Decimal.ceil (x - tolerance)

/-- Licences rounded down.  What is not a positive finite number counts as zero. -/
def floorLicenses (x : Float) : Nat :=
  if !x.isFinite || x ≤ 0.0 then 0 else Decimal.floor (x + tolerance)

/-- A reading that a formula needs. -/
def reading (readings : Readings) (a : Attribute) : Except Failure Float :=
  (readings.number a).mapError .invalidAttribute

/-- The licences of one machine under a direct rule. -/
def directLicenses (rule : DirectRule) (readings : Readings) : Except Failure Nat := do
  let cores ← reading readings rule.cores
  let factor ← reading readings rule.coreFactor
  return floorLicenses (cores * factor)

/-- What one machine contributes to its pool, not rounded. -/
def contribution (rule : PooledRule) (readings : Readings) : Except Failure Float := do
  let cores ← reading readings rule.cores
  let cpus ← reading readings rule.cpus
  let factor ← reading readings rule.coreFactor
  return cores * cpus * factor

/-- The largest count that can be compared with others. -/
def signed (licenses : Nat) : Int := min licenses signedMax

/-- The difference of two licence counts, each capped at what 64 bits with a sign can hold. -/
def difference (old new : Nat) : Int := signed new - signed old

/-- Old and new totals after one contribution was exchanged within its pool. -/
structure Splice where
  oldTotal : Nat
  newTotal : Nat
  oldPool : Nat
  newPool : Nat
deriving DecidableEq, Repr, Inhabited

/-- How much the total changes. -/
def Splice.delta (s : Splice) : Int := difference s.oldTotal s.newTotal

/-- The licences of a pool after the contribution `old` became `new`.  An unchanged contribution
    keeps the figure in store, even where that does not agree with the sum of contributions. -/
def newPool (pool : PoolFigures) (old new : Float) : Nat :=
  if (new - old).abs ≤ tolerance then pool.licenses
  else ceilLicenses (pool.fractional - old + new)

/-- The totals after the contribution `old` to a pool became `new`. -/
def splice (oldTotal : Nat) (pool : PoolFigures) (old new : Float) : Splice where
  oldTotal := oldTotal
  newTotal := min unsignedMax ((oldTotal : Int) - pool.licenses + newPool pool old new).toNat
  oldPool := pool.licenses
  newPool := newPool pool old new

/-- The licences of a product with named users.  Without users the processors alone count. -/
def userLicenses (processors usersPerProcessor : Nat) (users : List NamedUser) : Nat :=
  let least := min unsignedMax (processors * usersPerProcessor)
  if users.isEmpty then least
  else
    (NamedUser.distinct users).foldl
      (fun total user => min unsignedMax (total + max least user.count.toNat)) 0

end LicenseForecast.Formula
