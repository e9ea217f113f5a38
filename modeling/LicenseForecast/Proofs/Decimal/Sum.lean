import LicenseForecast.Decimal.Sum
import LicenseForecast.Proofs.Outcome
import Mathlib.Algebra.Order.BigOperators.Group.List
import Mathlib.Algebra.Order.Ring.Int
import Mathlib.Algebra.Order.Ring.Nat

namespace LicenseForecast.Decimal

/-!
# What checked sums come to

Checking each sum on the way is harmless as long as numbers have no sign: the sums only grow, so
the last one decides (`sumUnsigned_eq`).  With signs the total says nothing of the sums on the way,
and there is one exactly if all of these fit (`sumSigned_eq_ok`).  They do

* where all numbers have the same sign and the total fits (`sumSigned_of_aligned`);
* where there are few enough for their size (`sumSigned_of_bounded`).
-/

/-! ### Without a sign -/

/-- Checked additions from some start on are one check of the total. -/
private theorem foldlM_addUnsigned (numbers : List Nat) {start : Nat}
    (hstart : start ≤ unsignedMax) : numbers.foldlM addUnsigned start
      = if start + numbers.sum ≤ unsignedMax then .ok (start + numbers.sum) else .error ⟨⟩ := by
  induction numbers generalizing start with
  | nil => exact (if_pos hstart).symm
  | cons n rest ih =>
    rw [List.foldlM_cons, List.sum_cons, ← Nat.add_assoc]
    unfold addUnsigned
    by_cases hn : start + n ≤ unsignedMax
    · rw [if_pos hn]
      exact ih hn
    · -- what has left 64 bits once does not come back
      rw [if_neg hn, if_neg fun h => hn ((Nat.le_add_right _ _).trans h)]
      rfl

/-- **A sum without signs is checked once**: it is there if it fits. -/
theorem sumUnsigned_eq (numbers : List Nat) : sumUnsigned numbers
    = if numbers.sum ≤ unsignedMax then .ok numbers.sum else .error ⟨⟩ := by
  have h := foldlM_addUnsigned numbers (Nat.zero_le unsignedMax)
  rwa [Nat.zero_add] at h

/-! ### With a sign -/

variable {numbers : List Int} {total : Int}

/-- Checked additions from some start on check every sum on the way. -/
private theorem foldlM_addSigned {start : Int} (hstart : FitsSigned start) :
    numbers.foldlM addSigned start = .ok total ↔
      total = start + numbers.sum ∧ ∀ n, FitsSigned (start + (numbers.take n).sum) := by
  induction numbers generalizing start with
  | nil =>
    rw [List.foldlM_nil, pure_eq_ok, List.sum_nil, Int.add_zero, eq_comm]
    -- nothing is left to add, and the start fits
    refine (and_iff_left fun n => ?_).symm
    rwa [List.take_nil, List.sum_nil, Int.add_zero]
  | cons number rest ih =>
    rw [List.foldlM_cons, List.sum_cons, ← Int.add_assoc]
    unfold addSigned
    by_cases hnumber : FitsSigned (start + number)
    · rw [if_pos hnumber]
      -- the first parts of the list begin with the start itself or with one number more
      refine (ih hnumber).trans (and_congr_right fun _ => ⟨fun h n => ?_, fun h n => ?_⟩)
      · cases n with
        | zero => rwa [List.take_zero, List.sum_nil, Int.add_zero]
        | succ n =>
          rw [List.take_succ_cons, List.sum_cons, ← Int.add_assoc]
          exact h n
      · have hn := h (n + 1)
        rwa [List.take_succ_cons, List.sum_cons, ← Int.add_assoc] at hn
    · rw [if_neg hnumber]
      refine ⟨nofun, fun h => absurd ?_ hnumber⟩
      have hone := h.2 1
      rwa [List.take_succ_cons, List.take_zero, List.sum_singleton] at hone

/-- **A sum with signs is checked on the way**: it is there if every sum on the way fits. -/
theorem sumSigned_eq_ok : sumSigned numbers = .ok total ↔
    total = numbers.sum ∧ ∀ n, FitsSigned (numbers.take n).sum := by
  have h := @foldlM_addSigned numbers total 0 (by decide)
  simp only [Int.zero_add] at h
  exact h

/-- A total that does not fit is never there. -/
theorem sumSigned_of_not_fits (h : ¬ FitsSigned numbers.sum) : sumSigned numbers = .error ⟨⟩ := by
  cases hsum : sumSigned numbers with
  | error => rfl
  | ok total =>
    have hall := (sumSigned_eq_ok.mp hsum).2 numbers.length
    rw [List.take_length] at hall
    exact absurd hall h

/-- As many numbers make a sum that many times as large. -/
theorem sum_bounded {most : Nat} (h : ∀ number ∈ numbers, -(most : Int) ≤ number ∧ number ≤ most) :
    -(numbers.length * most : Int) ≤ numbers.sum ∧ numbers.sum ≤ numbers.length * most := by
  have hle := List.sum_le_card_nsmul _ _ fun number hnumber => (h number hnumber).2
  have hge := List.card_nsmul_le_sum _ _ fun number hnumber => (h number hnumber).1
  rw [Int.nsmul_eq_mul] at hle hge
  rw [Int.mul_neg] at hge
  exact ⟨hge, hle⟩

/-- **Numbers that are few enough for their size** have a sum that fits, and so do their first
    ones. -/
theorem sumSigned_of_bounded {most : Nat}
    (h : ∀ number ∈ numbers, -(most : Int) ≤ number ∧ number ≤ most)
    (hmost : numbers.length * most ≤ signedMax) : sumSigned numbers = .ok numbers.sum := by
  refine sumSigned_eq_ok.mpr ⟨rfl, fun n => ?_⟩
  have hpart := @sum_bounded (numbers.take n) most fun number hnumber =>
    h number (List.mem_of_mem_take hnumber)
  have hle : (numbers.take n).length * most ≤ signedMax :=
    (Nat.mul_le_mul_right _ (List.length_take_le' n numbers)).trans hmost
  unfold FitsSigned signedMin
  unfold signedMax at *
  omega

/-- Numbers that are not above zero have a sum that is not either. -/
private theorem sum_nonpos (h : ∀ number ∈ numbers, number ≤ 0) : numbers.sum ≤ 0 := by
  have hle := List.sum_le_card_nsmul _ _ h
  rwa [nsmul_zero] at hle

/-- The first numbers and the rest make up the total. -/
private theorem fitsSigned_take {n : Nat} (hfits : FitsSigned numbers.sum)
    (h : 0 ≤ (numbers.take n).sum ∧ 0 ≤ (numbers.drop n).sum ∨
      (numbers.take n).sum ≤ 0 ∧ (numbers.drop n).sum ≤ 0) : FitsSigned (numbers.take n).sum := by
  have hsplit := List.sum_take_add_sum_drop numbers n
  unfold FitsSigned signedMin signedMax at *
  omega

/-- **Numbers of one sign** have a sum exactly if the total fits: the sums on the way lie between
    zero and the total. -/
theorem sumSigned_of_aligned
    (h : (∀ number ∈ numbers, 0 ≤ number) ∨ ∀ number ∈ numbers, number ≤ 0) :
    sumSigned numbers = .ok numbers.sum ↔ FitsSigned numbers.sum := by
  rw [sumSigned_eq_ok, and_iff_right rfl]
  refine ⟨fun hfits => ?_, fun hfits n => fitsSigned_take hfits ?_⟩
  · have hall := hfits numbers.length
    rwa [List.take_length] at hall
  · rcases h with h | h
    · exact .inl ⟨List.sum_nonneg fun number hnumber => h number (List.mem_of_mem_take hnumber),
        List.sum_nonneg fun number hnumber => h number (List.mem_of_mem_drop hnumber)⟩
    · exact .inr ⟨sum_nonpos fun number hnumber => h number (List.mem_of_mem_take hnumber),
        sum_nonpos fun number hnumber => h number (List.mem_of_mem_drop hnumber)⟩

end LicenseForecast.Decimal
