import LicenseForecast.Decimal.Sum
import LicenseForecast.Formula
import Mathlib.Data.Int.Basic

namespace LicenseForecast

/-!
# Differences in 64 bits with a sign

Licences may take all 64 bits, and their difference has to do with 64 bits with a sign.
`Formula.difference` caps both sides at the largest number with a sign before it subtracts them,
so it cannot see anything above.  `Formula.difference_capped` says where a capped difference tells
what the difference is, or at least which side is larger, and where it tells that nothing changes.
-/

namespace Formula

open Decimal (signedMax FitsSigned)

/-- What is to be told of a change: how large it is where that fits into 64 bits with a sign, and
    its direction where it does not. -/
structure Tells (old new : Nat) (delta : Int) : Prop where
  exact : FitsSigned (new - old) → delta = new - old
  sign : ¬ FitsSigned (new - old) → delta.sign = ((new : Int) - old).sign

/-- What is told of a change once both sides are capped. -/
structure IsCapped (old new : Nat) (delta : Int) : Prop where
  bounded : -signedMax ≤ delta ∧ delta ≤ signedMax
  /-- The change is told if neither side is capped, or if there is none. -/
  exact_iff : delta = new - old ↔ old = new ∨ old ≤ signedMax ∧ new ≤ signedMax
  /-- Its direction is told besides if it is too large to be told and one side reaches below the
      cap. -/
  tells_iff : Tells old new delta ↔ delta = new - old ∨
    ¬ FitsSigned (new - old) ∧ (old < signedMax ∨ new < signedMax)
  /-- No change is told from the cap on, whatever changes there. -/
  zero_iff : delta = 0 ↔ old = new ∨ signedMax ≤ old ∧ signedMax ≤ new
  /-- What is told never exceeds the change, nor points the other way. -/
  rise : old ≤ new → 0 ≤ delta ∧ delta ≤ new - old
  fall : new ≤ old → new - old ≤ delta ∧ delta ≤ 0

variable (old new : Nat)

/-- A difference is exact if neither side is capped, or if both are the same. -/
theorem difference_eq_sub_iff :
    difference old new = new - old ↔ old = new ∨ old ≤ signedMax ∧ new ≤ signedMax := by
  unfold difference signed
  omega

/-- A difference of zero says that both are the same or both are at the cap. -/
theorem difference_eq_zero_iff :
    difference old new = 0 ↔ old = new ∨ signedMax ≤ old ∧ signedMax ≤ new := by
  unfold difference signed
  omega

/-- A difference has the sign of the change if one side reaches below the cap. -/
theorem difference_sign (h : old < signedMax ∨ new < signedMax) :
    (difference old new).sign = ((new : Int) - old).sign := by
  have hdifference : difference old new = min (new : Int) signedMax - min (old : Int) signedMax :=
    rfl
  rcases Nat.lt_trichotomy old new with hlt | rfl | hgt
  · rw [Int.sign_eq_one_of_pos (by omega), Int.sign_eq_one_of_pos (by omega)]
  · rw [hdifference, Int.sub_self, Int.sub_self]
  · rw [Int.sign_eq_neg_one_of_neg (by omega), Int.sign_eq_neg_one_of_neg (by omega)]

/-- A difference tells the change if it is exact, or if at least its sign is right. -/
theorem difference_tells_iff : Tells old new (difference old new) ↔
    difference old new = new - old ∨
      ¬ FitsSigned (new - old) ∧ (old < signedMax ∨ new < signedMax) := by
  constructor
  · rintro ⟨hexact, hsign⟩
    by_cases hfits : FitsSigned (new - old)
    · exact .inl (hexact hfits)
    · refine .inr ⟨hfits, ?_⟩
      -- a difference of zero would say that nothing changes, and then the change would fit
      by_contra hcapped
      have hzero := (difference_eq_zero_iff old new).mpr (.inr (by omega))
      have hnone := hsign hfits
      rw [hzero, Int.sign_zero, eq_comm, Int.sign_eq_zero_iff_zero] at hnone
      rw [hnone] at hfits
      exact hfits (by decide)
  · rintro (hexact | ⟨hfits, hbelow⟩)
    · exact ⟨fun _ => hexact, fun _ => congrArg Int.sign hexact⟩
    · exact ⟨fun h => absurd h hfits, fun _ => difference_sign old new hbelow⟩

/-- **What a difference tells of a change.** -/
theorem difference_capped : IsCapped old new (difference old new) where
  bounded := by
    unfold difference signed
    omega
  exact_iff := difference_eq_sub_iff old new
  tells_iff := difference_tells_iff old new
  zero_iff := difference_eq_zero_iff old new
  rise h := by
    unfold difference signed
    omega
  fall h := by
    unfold difference signed
    omega

/-- The largest totals there are, as far apart as they can be above the cap. -/
example : difference signedMax Decimal.unsignedMax = 0 := by decide

end Formula

end LicenseForecast
