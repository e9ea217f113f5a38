import LicenseForecast.Formula
import LicenseForecast.Proofs.Decimal.Zero

namespace LicenseForecast

/-!
# Rounding and splicing

A simulation takes one contribution out of a pool, puts another in, rounds the pool again and
exchanges its figure within the total.

* `ceilLicenses_congr` — rounding does not see the sign of a zero, nor does anything that follows
  (`splice_congr`);
* `newPool_self`, `newPool_self_of_not_isFinite` — a pool whose contribution stays as it was
  keeps its figure if the contribution is finite, and loses all of it if not;
* `newTotal_of_exchange` — an exchange within a sum gives the sum computed anew, as far as that fits
  into 64 bits.
-/

open Decimal (unsignedMax Eqv IsZero IsNaN)

namespace Formula

/-! ### Rounding -/

/-- Rounding up stops at the largest number that 64 bits can hold. -/
theorem ceil_le (x : Float) : Decimal.ceil x ≤ unsignedMax := by
  have hlt : x.toUInt64.toNat < 2 ^ 64 := UInt64.toNat_lt _
  show (if x.toUInt64.toFloat < x then _ else _) ≤ _
  split
  · exact Nat.min_le_left _ _
  · show x.toUInt64.toNat ≤ 18446744073709551615
    omega

/-- Licences fit into 64 bits. -/
theorem ceilLicenses_le (x : Float) : ceilLicenses x ≤ unsignedMax := by
  unfold ceilLicenses
  split
  · exact Nat.zero_le _
  · exact ceil_le _

/-- What is not finite counts for nothing. -/
theorem ceilLicenses_of_not_isFinite {x : Float} (hx : x.isFinite = false) :
    ceilLicenses x = 0 := by
  unfold ceilLicenses
  rw [hx]
  rfl

/-- Neither zero is above zero. -/
private theorem le_of_isZero {x : Float} (hx : IsZero x) : x ≤ 0.0 := by
  obtain ⟨s, hs⟩ := hx
  rw [Decimal.le_iff, hs]
  cases s <;> rfl

/-- Neither zero counts. -/
theorem ceilLicenses_of_isZero {x : Float} (hx : IsZero x) : ceilLicenses x = 0 := by
  unfold ceilLicenses
  rw [if_pos]
  rw [decide_eq_true (le_of_isZero hx), Bool.or_true]

/-- **Rounding does not see the sign of a zero.** -/
theorem ceilLicenses_congr {x y : Float} (h : Eqv x y) : ceilLicenses x = ceilLicenses y := by
  rcases h with rfl | ⟨hx, hy⟩
  · rfl
  · rw [ceilLicenses_of_isZero hx, ceilLicenses_of_isZero hy]

/-- Nor does it when it is rounded down. -/
theorem floorLicenses_of_isZero {x : Float} (hx : IsZero x) : floorLicenses x = 0 := by
  unfold floorLicenses
  rw [if_pos]
  rw [decide_eq_true (le_of_isZero hx), Bool.or_true]

/-- Rounding down does not see the sign of a zero either. -/
theorem floorLicenses_congr {x y : Float} (h : Eqv x y) : floorLicenses x = floorLicenses y := by
  rcases h with rfl | ⟨hx, hy⟩
  · rfl
  · rw [floorLicenses_of_isZero hx, floorLicenses_of_isZero hy]

/-! ### One pool -/

/-- Zero is within the tolerance. -/
private theorem abs_zero_le : (0.0 : Float).abs ≤ tolerance := by decide +kernel

/-- **A finite contribution that stays as it was leaves its pool as it was.** -/
theorem newPool_self (pool : PoolFigures) {c : Float} (hc : c.isFinite = true) :
    newPool pool c c = pool.licenses := by
  have hle : (c - c).abs ≤ tolerance := by
    rw [Decimal.sub_self_of_isFinite hc]
    exact abs_zero_le
  exact if_pos hle

/-- **A contribution that is not finite takes its pool with it**, even if it stays as it was: less
    itself it is no number, hence never within the tolerance. -/
theorem newPool_self_of_not_isFinite (pool : PoolFigures) {c : Float} (hc : c.isFinite = false) :
    newPool pool c c = 0 := by
  have hgt : ¬ (c - c).abs ≤ tolerance := (Decimal.isNaN_sub_self hc).abs.not_le
  refine (if_neg hgt).trans ?_
  exact ceilLicenses_of_not_isFinite (Decimal.isNaN_sub_add pool.fractional hc).not_isFinite

/-- Contributions that compare as equal count as equal. -/
theorem newPool_of_le {pool : PoolFigures} {old new : Float}
    (h : (new - old).abs ≤ tolerance) : newPool pool old new = pool.licenses :=
  if_pos h

/-- Contributions that differ exchange one for the other within the sum of the pool. -/
theorem newPool_of_not_le {pool : PoolFigures} {old new : Float}
    (h : ¬ (new - old).abs ≤ tolerance) :
    newPool pool old new = ceilLicenses (pool.fractional - old + new) :=
  if_neg h

/-- The same contributions leave the same pool. -/
theorem newPool_congr (pool : PoolFigures) {old old' new new' : Float} (hold : Eqv old old')
    (hnew : Eqv new new') : newPool pool old new = newPool pool old' new' := by
  have hdifference : (new - old).abs = (new' - old').abs :=
    Decimal.abs_congr (Decimal.sub_congr hnew hold)
  have hsum : Eqv (pool.fractional - old + new) (pool.fractional - old' + new') :=
    Decimal.add_congr (Decimal.sub_congr (Eqv.refl _) hold) hnew
  unfold newPool
  rw [hdifference, ceilLicenses_congr hsum]

/-! ### The total -/

/-- **The same contributions leave the same totals.** -/
theorem splice_congr (oldTotal : Nat) (pool : PoolFigures) {old old' new new' : Float}
    (hold : Eqv old old') (hnew : Eqv new new') :
    splice oldTotal pool old new = splice oldTotal pool old' new' := by
  unfold splice
  rw [newPool_congr pool hold hnew]

/-- A finite contribution that stays as it was leaves the total as it was. -/
theorem newTotal_self {oldTotal : Nat} (htotal : oldTotal ≤ unsignedMax) (pool : PoolFigures)
    {c : Float} (hc : c.isFinite = true) : (splice oldTotal pool c c).newTotal = oldTotal := by
  show min unsignedMax ((oldTotal : Int) - pool.licenses + newPool pool c c).toNat = _
  rw [newPool_self pool hc]
  omega

/-- A contribution that is not finite takes its pool out of the total. -/
theorem newTotal_self_of_not_isFinite {oldTotal : Nat} (htotal : oldTotal ≤ unsignedMax)
    (pool : PoolFigures) {c : Float} (hc : c.isFinite = false) :
    (splice oldTotal pool c c).newTotal = oldTotal - pool.licenses := by
  show min unsignedMax ((oldTotal : Int) - pool.licenses + newPool pool c c).toNat = _
  rw [newPool_self_of_not_isFinite pool hc]
  omega

/-- **An exchange within a sum** gives the sum computed anew, or the largest number that fits into
    64 bits where that sum does not. -/
theorem newTotal_of_exchange {sum sum' : Nat} {pool : PoolFigures} {old new : Float}
    (hexchange : sum' + pool.licenses = sum + newPool pool old new) :
    (splice sum pool old new).newTotal = min unsignedMax sum' := by
  show min unsignedMax ((sum : Int) - pool.licenses + newPool pool old new).toNat = _
  have hsum : ((sum : Int) - pool.licenses + newPool pool old new).toNat = sum' := by omega
  rw [hsum]

/-- Nothing is the difference of a figure and itself. -/
theorem difference_self (licenses : Nat) : difference licenses licenses = 0 := Int.sub_self _

end Formula

end LicenseForecast
