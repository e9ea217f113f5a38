import LicenseForecast.Decimal.Integer
import Mathlib

namespace LicenseForecast.Decimal

open Float.Model Float.Model.UnpackedFloat

/-!
# Doubles and zero

Sums of contributions start from zero, and a simulation takes one contribution out of a sum and
puts another in.  What the licence figures need of doubles for that is proved here:

* `pack_unpack` — a double is what its parts are packed into, so two doubles with the same parts
  are the same;
* `add_zero_eqv`, `zero_add_eqv` — adding a zero changes nothing but, at most, the sign of a zero
  (`Eqv`);
* `add_congr`, `sub_congr`, `mul_congr` — what is computed from the same numbers is the same number;
* `sub_self_of_isFinite` — a finite double less itself is zero;
* `isNaN_sub_add` — once an infinite contribution is taken out and put back, no number is left.
-/

/-! ### Packing undoes unpacking -/

/-- **Packing undoes unpacking.** -/
theorem pack_unpack (x : Float) : Float.ofModel (.pack x.toModel.unpack) = x := by
  obtain ⟨⟨bits, hb⟩⟩ := x
  have h : UnpackedFloat.pack Format.binary64 (.unpack Format.binary64 bits.toBitVec)
      = bits.toBitVec := UnpackedFloat.pack_unpack_of_valid hb
  simp only [Float.Model.pack, Float.Model.unpack, h]

/-- Doubles with the same parts are the same. -/
theorem eq_of_unpack_eq {x y : Float} (h : x.toModel.unpack = y.toModel.unpack) : x = y := by
  rw [← pack_unpack x, ← pack_unpack y, h]

/-- Doubles are compared by their parts. -/
theorem le_iff {x y : Float} :
    x ≤ y ↔ UnpackedFloat.le x.toModel.unpack y.toModel.unpack = true :=
  decide_eq_true_iff

/-! ### Zeros -/

/-- A zero of either sign. -/
def IsZero (x : Float) : Prop := ∃ s, x.toModel.unpack = .zero s

/-- The same number: the same double, or two zeros. -/
def Eqv (x y : Float) : Prop := x = y ∨ IsZero x ∧ IsZero y

theorem Eqv.refl (x : Float) : Eqv x x := .inl rfl

theorem Eqv.symm {x y : Float} (h : Eqv x y) : Eqv y x := h.imp Eq.symm And.symm

theorem Eqv.trans {x y z : Float} (hxy : Eqv x y) (hyz : Eqv y z) : Eqv x z := by
  rcases hxy with rfl | ⟨hx, hy⟩
  · exact hyz
  · rcases hyz with rfl | ⟨_, hz⟩
    · exact .inr ⟨hx, hy⟩
    · exact .inr ⟨hx, hz⟩

theorem isZero_zero : IsZero 0.0 := ⟨.positive, rfl⟩

/-- Either zero is zero once it is packed. -/
private theorem isZero_pack (s : Sign) : IsZero (.ofModel (.pack (.zero s))) :=
  ⟨s, by cases s <;> rfl⟩

/-- An operation that gives back the parts of one operand, or a zero for a zero, changes nothing
    but the sign of a zero. -/
private theorem eqv_of_parts {x y : Float} {u : UnpackedFloat}
    (hy : y = .ofModel (.pack u))
    (h : u = x.toModel.unpack ∨ IsZero x ∧ ∃ s, u = .zero s) : Eqv y x := by
  subst hy
  rcases h with rfl | ⟨hx, s, rfl⟩
  · exact .inl (pack_unpack x)
  · exact .inr ⟨isZero_pack s, hx⟩

/-- Adding a zero changes nothing. -/
theorem add_zero_eqv (x : Float) {z : Float} (hz : IsZero z) : Eqv (x + z) x := by
  obtain ⟨s, hs⟩ := hz
  refine eqv_of_parts (u := .add Format.binary64 x.toModel.unpack z.toModel.unpack) rfl ?_
  rw [hs]
  cases hx : x.toModel.unpack with
  | zero t => exact .inr ⟨⟨t, hx⟩, by cases t <;> cases s <;> exact ⟨_, rfl⟩⟩
  | _ => exact .inl rfl

/-- Adding to a zero changes nothing. -/
theorem zero_add_eqv (x : Float) {z : Float} (hz : IsZero z) : Eqv (z + x) x := by
  obtain ⟨s, hs⟩ := hz
  refine eqv_of_parts (u := .add Format.binary64 z.toModel.unpack x.toModel.unpack) rfl ?_
  rw [hs]
  cases hx : x.toModel.unpack with
  | zero t => exact .inr ⟨⟨t, hx⟩, by cases t <;> cases s <;> exact ⟨_, rfl⟩⟩
  | _ => exact .inl rfl

/-- Sums of the same numbers are the same number. -/
theorem add_congr {x y z w : Float} (hxy : Eqv x y) (hzw : Eqv z w) : Eqv (x + z) (y + w) := by
  have hleft : Eqv (x + z) (y + z) := by
    rcases hxy with rfl | ⟨hx, hy⟩
    · exact Eqv.refl _
    · exact (zero_add_eqv z hx).trans (zero_add_eqv z hy).symm
  have hright : Eqv (y + z) (y + w) := by
    rcases hzw with rfl | ⟨hz, hw⟩
    · exact Eqv.refl _
    · exact (add_zero_eqv y hz).trans (add_zero_eqv y hw).symm
  exact hleft.trans hright

/-- An operation that makes zeros of two zeros, or the same of both, does not see their signs. -/
private theorem eqv_of_zeros {x y : Float} {u v : UnpackedFloat} (hx : x = .ofModel (.pack u))
    (hy : y = .ofModel (.pack v)) (h : u = v ∨ (∃ s, u = .zero s) ∧ ∃ s, v = .zero s) :
    Eqv x y := by
  subst hx hy
  rcases h with rfl | ⟨⟨s, rfl⟩, t, rfl⟩
  · exact Eqv.refl _
  · exact .inr ⟨isZero_pack s, isZero_pack t⟩

/-- Taking a zero away changes nothing. -/
theorem sub_zero_eqv (x : Float) {z : Float} (hz : IsZero z) : Eqv (x - z) x := by
  obtain ⟨s, hs⟩ := hz
  refine eqv_of_parts (u := .sub Format.binary64 x.toModel.unpack z.toModel.unpack) rfl ?_
  rw [hs]
  cases hx : x.toModel.unpack with
  | zero t => exact .inr ⟨⟨t, hx⟩, by cases t <;> cases s <;> exact ⟨_, rfl⟩⟩
  | _ => exact .inl rfl

/-- What is taken from a zero does not see its sign. -/
private theorem zeros_sub (z : Float) {x y : Float} (hx : IsZero x) (hy : IsZero y) :
    Eqv (x - z) (y - z) := by
  obtain ⟨s, hs⟩ := hx
  obtain ⟨t, ht⟩ := hy
  refine eqv_of_zeros (u := .sub Format.binary64 x.toModel.unpack z.toModel.unpack)
    (v := .sub Format.binary64 y.toModel.unpack z.toModel.unpack) rfl rfl ?_
  rw [hs, ht]
  cases z.toModel.unpack with
  | zero r => right; constructor <;> cases s <;> cases t <;> cases r <;> exact ⟨_, rfl⟩
  | _ => exact .inl rfl

/-- Differences of the same numbers are the same number. -/
theorem sub_congr {x y z w : Float} (hxy : Eqv x y) (hzw : Eqv z w) : Eqv (x - z) (y - w) := by
  have hleft : Eqv (x - z) (y - z) := by
    rcases hxy with rfl | ⟨hx, hy⟩
    · exact Eqv.refl _
    · exact zeros_sub z hx hy
  have hright : Eqv (y - z) (y - w) := by
    rcases hzw with rfl | ⟨hz, hw⟩
    · exact Eqv.refl _
    · exact (sub_zero_eqv y hz).trans (sub_zero_eqv y hw).symm
  exact hleft.trans hright

/-- A product with a zero does not see its sign: it is a zero or no number. -/
private theorem zeros_mul (z : Float) {x y : Float} (hx : IsZero x) (hy : IsZero y) :
    Eqv (x * z) (y * z) ∧ Eqv (z * x) (z * y) := by
  obtain ⟨s, hs⟩ := hx
  obtain ⟨t, ht⟩ := hy
  -- zero times anything is zero or no number, whichever factor comes first
  constructor
  · refine eqv_of_zeros (u := .mul Format.binary64 x.toModel.unpack z.toModel.unpack)
      (v := .mul Format.binary64 y.toModel.unpack z.toModel.unpack) rfl rfl ?_
    rw [hs, ht]
    cases z.toModel.unpack with
    | notANumber | infinity => exact .inl rfl
    | zero | finite => exact .inr ⟨⟨_, rfl⟩, _, rfl⟩
  · refine eqv_of_zeros (u := .mul Format.binary64 z.toModel.unpack x.toModel.unpack)
      (v := .mul Format.binary64 z.toModel.unpack y.toModel.unpack) rfl rfl ?_
    rw [hs, ht]
    cases z.toModel.unpack with
    | notANumber | infinity => exact .inl rfl
    | zero | finite => exact .inr ⟨⟨_, rfl⟩, _, rfl⟩

/-- Products of the same numbers are the same number. -/
theorem mul_congr {x y z w : Float} (hxy : Eqv x y) (hzw : Eqv z w) : Eqv (x * z) (y * w) := by
  have hleft : Eqv (x * z) (y * z) := by
    rcases hxy with rfl | ⟨hx, hy⟩
    · exact Eqv.refl _
    · exact (zeros_mul z hx hy).1
  have hright : Eqv (y * z) (y * w) := by
    rcases hzw with rfl | ⟨hz, hw⟩
    · exact Eqv.refl _
    · exact (zeros_mul y hz hw).2
  exact hleft.trans hright

/-- The same number has the same magnitude. -/
theorem abs_congr {x y : Float} (h : Eqv x y) : x.abs = y.abs := by
  rcases h with rfl | ⟨⟨s, hs⟩, t, ht⟩
  · rfl
  · show Float.ofModel (.pack x.toModel.unpack.abs) = .ofModel (.pack y.toModel.unpack.abs)
    rw [hs, ht]
    rfl

/-- Doubles that compare as equal are the same number. -/
theorem eqv_of_beq {x y : Float} (h : (x == y) = true) : Eqv x y := by
  obtain ⟨-, -, h⟩ :=
    (UnpackedFloat.beq_iff_ne_notANumber_and_eq x.toModel.unpack y.toModel.unpack).mp h
  rcases h with h | ⟨hx, hy⟩ | ⟨hx, hy⟩
  · exact .inl (eq_of_unpack_eq h)
  · exact .inr ⟨⟨_, hx⟩, ⟨_, hy⟩⟩
  · exact .inr ⟨⟨_, hx⟩, ⟨_, hy⟩⟩

/-! ### A number less itself -/

/-- **A finite double less itself is zero.** -/
theorem sub_self_of_isFinite {x : Float} (hx : x.isFinite = true) : x - x = 0.0 := by
  have hx : x.toModel.unpack.isFinite = true := hx
  show Float.ofModel (.pack (.sub Format.binary64 x.toModel.unpack x.toModel.unpack)) = _
  cases hu : x.toModel.unpack with
  | notANumber => rw [hu] at hx; exact absurd hx (by decide)
  | infinity s => rw [hu] at hx; exact absurd hx (by simp [UnpackedFloat.isFinite])
  | zero s => cases s <;> rfl
  | finite s m e hm =>
    have hzero : s.apply ↑(decreaseExponent m e (min e e)).1
        - s.apply ↑(decreaseExponent m e (min e e)).1 = 0 := Int.sub_self _
    simp only [UnpackedFloat.sub, hzero]
    rfl

/-- No number at all. -/
def IsNaN (x : Float) : Prop := x.toModel.unpack = .notANumber

/-- What consists of the parts of no number is no number. -/
private theorem isNaN_of_parts {x : Float} {u : UnpackedFloat} (hx : x = .ofModel (.pack u))
    (hu : u = .notANumber) : IsNaN x := by
  subst hx hu
  rfl

/-- What is no number is not finite. -/
theorem IsNaN.not_isFinite {x : Float} (hx : IsNaN x) : x.isFinite = false := by
  show x.toModel.unpack.isFinite = false
  rw [hx]
  rfl

/-- Without its sign it is no number either. -/
theorem IsNaN.abs {x : Float} (hx : IsNaN x) : IsNaN x.abs := by
  refine isNaN_of_parts (u := x.toModel.unpack.abs) rfl ?_
  rw [hx]
  rfl

/-- What is no number is at most no number. -/
theorem IsNaN.not_le {x y : Float} (hx : IsNaN x) : ¬ x ≤ y := by
  rw [le_iff, hx]
  cases y.toModel.unpack <;> exact Bool.false_ne_true

/-- What is not finite is infinite or no number. -/
private theorem eq_infinity_or_notANumber {u : UnpackedFloat} (hu : u.isFinite = false) :
    (∃ s, u = .infinity s) ∨ u = .notANumber := by
  cases u with
  | infinity s => exact .inl ⟨s, rfl⟩
  | notANumber => exact .inr rfl
  | _ => exact absurd hu (by simp [UnpackedFloat.isFinite])

/-- A double that is not finite, less itself, is no number. -/
theorem isNaN_sub_self {x : Float} (hx : x.isFinite = false) : IsNaN (x - x) := by
  refine isNaN_of_parts (u := .sub Format.binary64 x.toModel.unpack x.toModel.unpack) rfl ?_
  rcases eq_infinity_or_notANumber hx with ⟨s, hs⟩ | hs <;> rw [hs]
  · cases s <;> rfl
  · rfl

/-- Taking infinity away leaves no number or the opposite infinity. -/
private theorem sub_infinity (u : UnpackedFloat) (s : Sign) :
    UnpackedFloat.sub Format.binary64 u (.infinity s) = .notANumber ∨
      UnpackedFloat.sub Format.binary64 u (.infinity s) = .infinity (-s) := by
  cases u with
  | notANumber => exact .inl rfl
  | infinity t => cases s <;> cases t <;> first | exact .inl rfl | exact .inr rfl
  | zero t => exact .inr rfl
  | finite t m e hm => exact .inr rfl

/-- **What is not finite cannot be taken out of a sum and put back.** -/
theorem isNaN_sub_add {x : Float} (sum : Float) (hx : x.isFinite = false) :
    IsNaN (sum - x + x) := by
  have hdiff : sum - x
      = .ofModel (.pack (.sub Format.binary64 sum.toModel.unpack x.toModel.unpack)) := rfl
  refine isNaN_of_parts
    (u := .add Format.binary64 (sum - x).toModel.unpack x.toModel.unpack) rfl ?_
  rcases eq_infinity_or_notANumber hx with ⟨s, hs⟩ | hs
  · rw [hdiff, hs]
    rcases sub_infinity sum.toModel.unpack s with h | h <;> rw [h] <;> cases s <;> rfl
  · rw [hs]
    cases (sum - x).toModel.unpack <;> rfl

end LicenseForecast.Decimal
