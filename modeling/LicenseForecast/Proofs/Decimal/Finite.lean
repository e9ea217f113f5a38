import LicenseForecast.Json.Token
import Mathlib

namespace LicenseForecast.Decimal

open Float.Model Float.Model.UnpackedFloat

/-!
# What is read as a double is finite

A text of digits stands for a double that is put together by multiplication and division.  A product
that becomes infinite is refused, and a quotient cannot become so, as one divides by ten at least.

* `isFinite_of_packable` — a number becomes infinite only by its exponent;
* `packable_roundWithAccuracy` — rounding raises that of a number that is not too large as far as
  the largest of a double and no further;
* `isFinite_div` — so what is divided by eight or more stays finite;
* `divides_powerOfTen` — and rounding makes no power of ten smaller than that;
* `Token.Significand.isFinite_of_toFloat?` — so all that is read is finite.
-/

/-! ### Numbers that are not packed as infinite -/

/-- The largest exponent of a double. -/
def maxExponent : Int := 971

/-- A number whose exponent is one of a double. -/
def Packable : UnpackedFloat → Prop
  | .zero _ => True
  | .finite _ _ e _ => e ≤ maxExponent
  | _ => False

/-- Bits stand for a finite number unless those of the exponent are all set. -/
theorem isFinite_unpack_iff {b : BitVec Format.binary64.numBits} :
    (UnpackedFloat.unpack Format.binary64 b).isFinite = true ↔ unpackExponent b ≠ -1#_ := by
  fun_cases UnpackedFloat.unpack Format.binary64 b with
  | case1 _ _ _ _ h => exact ⟨nofun, fun hne => absurd h hne⟩
  | case2 _ _ h => exact ⟨nofun, fun hne => absurd h hne⟩
  | case3 _ _ _ _ h => exact ⟨fun _ => h, fun _ => rfl⟩
  | case4 _ _ _ _ _ h => exact ⟨fun _ => h, fun _ => rfl⟩
  | case5 _ _ _ _ _ h => exact ⟨fun _ => h, fun _ => rfl⟩

/-- **A number becomes infinite only by its exponent.** -/
theorem isFinite_of_packable {u : UnpackedFloat} (h : Packable u) :
    (Float.ofModel (.pack u)).isFinite = true := by
  show (UnpackedFloat.unpack Format.binary64 (UnpackedFloat.pack Format.binary64 u)).isFinite = true
  rw [isFinite_unpack_iff]
  cases u with
  | notANumber => exact h.elim
  | infinity s => exact h.elim
  | zero s => cases s <;> decide
  | finite s m e hm =>
    have he : e ≤ 971 := h
    unfold UnpackedFloat.pack
    simp only
    split
    next hbig =>
      -- packing overflows only beyond the largest exponent
      exfalso
      simp only [Format.exponentBias] at hbig
      omega
    next hsmall =>
      -- any other exponent field is below the one of infinities
      split
      · rw [unpackExponent_packComponents]
        intro heq
        have hbits := congrArg BitVec.toNat heq
        simp [Format.exponentBias] at hbits hsmall
        omega
      · rw [unpackExponent_packComponents]
        decide

/-- What is a number stays one when it is packed. -/
theorem isFinite_or_isInf {u : UnpackedFloat} (h : u ≠ .notANumber) :
    (Float.ofModel (.pack u)).isFinite = true ∨ (Float.ofModel (.pack u)).isInf = true := by
  cases u with
  | notANumber => exact absurd rfl h
  | infinity s => cases s <;> exact .inr rfl
  | zero s => exact .inl (isFinite_of_packable trivial)
  | finite s m e hm =>
    by_cases he : e ≤ maxExponent
    · exact .inl (isFinite_of_packable he)
    · right
      -- beyond the largest exponent, packing gives an infinity
      have hinfinity : UnpackedFloat.pack Format.binary64 (.finite s m e hm)
          = packedInfinity Format.binary64 s := by
        unfold UnpackedFloat.pack
        refine if_pos ?_
        simp only [Format.exponentBias, maxExponent] at he ⊢
        omega
      show (UnpackedFloat.unpack Format.binary64
        (UnpackedFloat.pack Format.binary64 _)).isInf = true
      rw [hinfinity]
      cases s <;> rfl

/-! ### Rounding -/

/-- A shift to the right divides the mantissa. -/
private theorem mantissa_shiftRight (em : ExtendedMantissa) (n : Nat) :
    (em >>> n).mantissa = em.mantissa / 2 ^ n := by
  induction n with
  | zero => exact (Nat.div_one _).symm
  | succ n ih =>
    show (em >>> n).mantissa / 2 = _
    rw [ih, Nat.div_div_eq_div_mul, Nat.pow_succ]

/-- A mantissa with some accuracy has that mantissa. -/
private theorem mantissa_ofMantissaAndAccuracy (m : Nat) (accuracy : Accuracy) :
    (ExtendedMantissa.ofMantissaAndAccuracy m accuracy).mantissa = m := by
  unfold ExtendedMantissa.ofMantissaAndAccuracy
  split <;> rfl

/-- Rounding never makes a mantissa smaller. -/
private theorem le_roundedMantissa (em : ExtendedMantissa) : em.mantissa ≤ em.roundedMantissa := by
  obtain ⟨m, roundBit, stickyBit⟩ := em
  unfold ExtendedMantissa.roundedMantissa
  cases roundBit <;> cases stickyBit <;>
    simp only [ExtendedMantissa.accuracy, Accuracy.roundToNearestEven] <;> omega

/-- Rounding adds one at most. -/
private theorem roundedMantissa_le (em : ExtendedMantissa) :
    em.roundedMantissa ≤ em.mantissa + 1 := by
  obtain ⟨m, roundBit, stickyBit⟩ := em
  unfold ExtendedMantissa.roundedMantissa
  cases roundBit <;> cases stickyBit <;>
    simp only [ExtendedMantissa.accuracy, Accuracy.roundToNearestEven] <;> omega

/-- How many bits are left after a shift to the right, with one to carry. -/
private theorem log2_le_of_shift {m r n : Nat} (h : r ≤ m / 2 ^ n + 1) :
    Nat.log2 r ≤ Nat.log2 m - n + 1 := by
  by_cases hr : r = 0
  · simp [hr]
  · refine Nat.lt_succ_iff.mp ((Nat.log2_lt hr).mpr ?_)
    have hm : m / 2 ^ n < 2 ^ (Nat.log2 m - n + 1) := by
      rw [Nat.div_lt_iff_lt_mul (Nat.two_pow_pos n), ← Nat.pow_add]
      exact Nat.lt_of_lt_of_le Nat.lt_log2_self (Nat.pow_le_pow_right (by decide) (by omega))
    have hdouble : 2 ^ (Nat.log2 m - n + 1 + 1) = 2 * 2 ^ (Nat.log2 m - n + 1) := Nat.pow_succ'
    have hpos : 0 < 2 ^ (Nat.log2 m - n + 1) := Nat.two_pow_pos _
    omega

/-- **Rounding does not make a number infinite** that is at most half the largest double. -/
theorem packable_roundWithAccuracy {s : Sign} {m : Nat} {e : Int} {accuracy : Accuracy}
    (he : e ≤ maxExponent) (htotal : totalExponent m e ≤ 1023) :
    Packable (roundWithAccuracy Format.binary64 s m e accuracy) := by
  -- the first shift and what it makes of the mantissa
  let target := Format.binary64.targetExponent (totalExponent m e)
  let shift := (target - e).toNat
  let rounded :=
    (ExtendedMantissa.ofMantissaAndAccuracy m accuracy >>> shift : ExtendedMantissa).roundedMantissa
  let final := Format.binary64.targetExponent (totalExponent rounded (e + shift))
  have hrounded : Nat.log2 rounded ≤ Nat.log2 m - shift + 1 := by
    refine log2_le_of_shift ?_
    have hle := roundedMantissa_le (ExtendedMantissa.ofMantissaAndAccuracy m accuracy >>> shift)
    rwa [mantissa_shiftRight, mantissa_ofMantissaAndAccuracy] at hle
  have htarget : target = max (totalExponent m e - 53) (-1074) := rfl
  have hfinal : final = max (totalExponent rounded (e + shift) - 53) (-1074) := rfl
  have hexponent : e + shift + (final - (e + shift)).toNat ≤ maxExponent := by
    have hshift : (shift : Int) = max (target - e) 0 := Int.toNat_eq_max ..
    have htotal' : totalExponent rounded (e + shift) = Nat.log2 rounded + 1 + (e + shift) := rfl
    have htotal'' : totalExponent m e = Nat.log2 m + 1 + e := rfl
    simp only [maxExponent] at he ⊢
    omega
  unfold roundWithAccuracy
  simp only
  split
  · trivial
  · exact hexponent

/-! ### Division -/

/-- The exponent and the mantissa of a finite double are those that its bits can hold. -/
private theorem lt_of_unpack {b : BitVec Format.binary64.numBits} {s : Sign} {m : Nat} {e : Int}
    {hm : 0 < m} (h : UnpackedFloat.unpack Format.binary64 b = .finite s m e hm) :
    m < 2 ^ 53 ∧ e ≤ maxExponent := by
  have hexponent : (unpackExponent b).toNat < 2 ^ 11 := (unpackExponent b).isLt
  have hmantissa : (unpackMantissa b).toNat < 2 ^ 52 := (unpackMantissa b).isLt
  have hbias : (Format.binary64.exponentBias : Int) = 1023 := rfl
  unfold UnpackedFloat.unpack at h
  by_cases hinf : unpackExponent b = -1#_
  · by_cases hzero : unpackMantissa b = 0#_ <;> simp [hinf, hzero] at h
  -- the exponent field of infinities is excluded, a zero one leaves the mantissa as it is stored
  · have hne : (unpackExponent b).toNat ≠ 2047 := fun heq =>
      hinf (BitVec.eq_of_toNat_eq (by rw [heq]; rfl))
    by_cases hsub : unpackExponent b = 0#_
    · by_cases hzero : unpackMantissa b = 0#_
      · simp [hsub, hzero] at h
      · have hnone : (unpackExponent b).toNat = 0 := by rw [hsub]; rfl
        simp only [if_neg hinf, if_pos hsub, dif_neg hzero] at h
        injection h with _ hm' he'
        simp only [maxExponent]
        omega
    · simp only [if_neg hinf, if_neg hsub] at h
      injection h with _ hm' he'
      -- any other exponent field puts the leading bit in front of the stored mantissa
      have happend : (1#1 ++ unpackMantissa b).toNat < 2 ^ 53 := (1#1 ++ unpackMantissa b).isLt
      simp only [maxExponent]
      omega

/-- A finite double is not larger than the largest one. -/
private theorem totalExponent_le_of_unpack {x : Float} {s : Sign} {m : Nat} {e : Int} {hm : 0 < m}
    (h : x.toModel.unpack = .finite s m e hm) : totalExponent m e ≤ 1024 := by
  obtain ⟨hmantissa, hexponent⟩ := lt_of_unpack h
  have hlog : Nat.log2 m < 53 := (Nat.log2_lt (by omega)).mpr hmantissa
  simp only [maxExponent] at hexponent
  unfold totalExponent
  omega

/-- What a finite number is divided by, if it is at least eight. -/
inductive Divides : UnpackedFloat → Prop
  | finite {s : Sign} {m : Nat} {e : Int} {hm : 0 < m} (large : 4 ≤ totalExponent m e) :
      Divides (.finite s m e hm)

/-- How many bits a quotient can have. -/
private theorem log2_div_le (m n : Nat) {d : Nat} (hd : 0 < d) :
    Nat.log2 ((m <<< n) / d) ≤ Nat.log2 m + n - Nat.log2 d := by
  by_cases hq : (m <<< n) / d = 0
  · simp [hq]
  · refine Nat.lt_succ_iff.mp ((Nat.log2_lt hq).mpr ?_)
    rw [Nat.div_lt_iff_lt_mul hd, Nat.shiftLeft_eq]
    have hm : m * 2 ^ n < 2 ^ (Nat.log2 m + 1 + n) := by
      rw [Nat.pow_add]
      exact Nat.mul_lt_mul_of_pos_right Nat.lt_log2_self (Nat.two_pow_pos n)
    have hd' : 2 ^ Nat.log2 d ≤ d := Nat.log2_self_le (by omega)
    calc m * 2 ^ n < 2 ^ (Nat.log2 m + 1 + n) := hm
      _ ≤ 2 ^ (Nat.log2 m + n - Nat.log2 d + 1 + Nat.log2 d) :=
        Nat.pow_le_pow_right (by decide) (by omega)
      _ = 2 ^ (Nat.log2 m + n - Nat.log2 d + 1) * 2 ^ Nat.log2 d := Nat.pow_add ..
      _ ≤ 2 ^ (Nat.log2 m + n - Nat.log2 d + 1) * d := Nat.mul_le_mul_left _ hd'

/-- **A finite double stays finite** when it is divided by eight or more. -/
theorem isFinite_div {x d : Float} (hx : x.isFinite = true) (hd : Divides d.toModel.unpack) :
    (x / d).isFinite = true := by
  have hx : x.toModel.unpack.isFinite = true := hx
  refine isFinite_of_packable (u := .div Format.binary64 x.toModel.unpack d.toModel.unpack) ?_
  cases hdu : d.toModel.unpack with
  | finite s₂ m₂ e₂ hm₂ =>
    cases hxu : x.toModel.unpack with
    | notANumber => rw [hxu] at hx; cases hx
    | infinity s => rw [hxu] at hx; cases hx
    | zero s => trivial
    | finite s₁ m₁ e₁ hm₁ =>
      have hx' : (m₁.log2 : Int) + 1 + e₁ ≤ 1024 := totalExponent_le_of_unpack hxu
      rw [hdu] at hd
      obtain ⟨hlarge⟩ := hd
      have hd' : 4 ≤ (m₂.log2 : Int) + 1 + e₂ := hlarge
      -- the exponent of the quotient before it is rounded
      let target := min (e₁ - e₂)
        (Format.binary64.targetExponent (totalExponent m₁ e₁ - totalExponent m₂ e₂))
      have htarget : target = min (e₁ - e₂)
        (max ((m₁.log2 : Int) + 1 + e₁ - (m₂.log2 + 1 + e₂) - 53) (-1074)) := rfl
      have hbits := log2_div_le m₁ (e₁ - e₂ - target).toNat hm₂
      refine packable_roundWithAccuracy (e := target) ?_ ?_
      · simp only [maxExponent]
        omega
      · show (Nat.log2 ((m₁ <<< (e₁ - e₂ - target).toNat) / m₂) : Int) + 1 + target ≤ 1023
        omega
  | _ => rw [hdu] at hd; cases hd

/-! ### Integers, signs and products -/

/-- What is rounded can be packed if it is not too large before. -/
private theorem packable_round {s : Sign} {m : Nat} {e : Int} (he : e ≤ maxExponent)
    (htotal : totalExponent m e ≤ 1023) :
    Packable (UnpackedFloat.round Format.binary64 s m e) := by
  have htotal' : (m.log2 : Int) + 1 + e ≤ 1023 := htotal
  have hbits := fun n => log2_div_le m n Nat.one_pos
  simp only [Nat.div_one, show Nat.log2 1 = 0 from rfl, Nat.sub_zero] at hbits
  refine packable_roundWithAccuracy ?_ ?_
  · show e - _ ≤ maxExponent
    omega
  · have hbits := hbits (e - Format.binary64.targetExponent (totalExponent m e)).toNat
    show (Nat.log2 (m <<< _) : Int) + 1 + (e - _) ≤ 1023
    omega

/-- **An integer of 64 bits becomes a finite double.** -/
theorem isFinite_toFloat (n : UInt64) : n.toFloat.isFinite = true := by
  refine isFinite_of_packable (u := UnpackedFloat.ofUInt64 Format.binary64 n) ?_
  show Packable (UnpackedFloat.normalize Format.binary64 n.toNat 0 .positive)
  unfold UnpackedFloat.normalize
  split
  next h =>
    have hneg := Int.compare_eq_lt.mp h
    omega
  next => trivial
  next h =>
    -- an integer of 64 bits has an exponent far below the largest one
    have hpos := Int.compare_eq_gt.mp h
    refine packable_round (by decide) ?_
    have hlog : Nat.log2 n.toNat < 64 := (Nat.log2_lt (by omega)).mpr n.toNat_lt
    show (Nat.log2 n.toNat : Int) + 1 + 0 ≤ 1023
    omega

/-- A sign does not matter. -/
theorem isFinite_neg {x : Float} (h : x.isFinite = true) : (-x).isFinite = true := by
  have hx : x.toModel.unpack.isFinite = true := h
  refine isFinite_of_packable (u := x.toModel.unpack.neg) ?_
  cases hu : x.toModel.unpack with
  | notANumber => rw [hu] at hx; cases hx
  | infinity s => rw [hu] at hx; cases hx
  | zero s => trivial
  | finite s m e hm => exact (lt_of_unpack hu).2

/-- The double nearest to an integer of 64 bits is finite. -/
theorem isFinite_ofInt (n : Int) : (ofInt n).isFinite = true := by
  unfold ofInt
  split
  · exact isFinite_neg (isFinite_toFloat _)
  · exact isFinite_toFloat _

/-- What is rounded is a number. -/
theorem roundWithAccuracy_ne_notANumber {s : Sign} {m : Nat} {e : Int}
    {accuracy : Accuracy} :
    roundWithAccuracy Format.binary64 s m e accuracy ≠ .notANumber := by
  unfold roundWithAccuracy
  simp only
  split <;> nofun

/-- A product of finite doubles is finite or infinite, but always a number. -/
theorem isFinite_mul {x y : Float} (hx : x.isFinite = true) (hy : y.isFinite = true)
    (h : (x * y).isInf = false) : (x * y).isFinite = true := by
  have hnumber : UnpackedFloat.mul Format.binary64 x.toModel.unpack y.toModel.unpack
      ≠ .notANumber := by
    -- neither factor is infinite or no number, so the product is that of two numbers
    have hx : x.toModel.unpack.isFinite = true := hx
    have hy : y.toModel.unpack.isFinite = true := hy
    cases hxu : x.toModel.unpack with
    | notANumber => rw [hxu] at hx; cases hx
    | infinity s => rw [hxu] at hx; cases hx
    | zero s =>
      cases hyu : y.toModel.unpack with
      | notANumber => rw [hyu] at hy; cases hy
      | infinity t => rw [hyu] at hy; cases hy
      | _ => exact UnpackedFloat.noConfusion
    | finite s m e hm =>
      cases hyu : y.toModel.unpack with
      | notANumber => rw [hyu] at hy; cases hy
      | infinity t => rw [hyu] at hy; cases hy
      | zero t => exact UnpackedFloat.noConfusion
      | finite t n f hn => exact roundWithAccuracy_ne_notANumber
  refine (isFinite_or_isInf hnumber).resolve_right fun hinf => ?_
  exact Bool.false_ne_true (h.symm.trans hinf)

/-! ### Powers of ten -/

instance : DecidablePred Divides := fun u =>
  match u with
  | .finite _ m e _ => decidable_of_iff (4 ≤ totalExponent m e) ⟨.finite, fun ⟨h⟩ => h⟩
  | .zero _ | .infinity _ | .notANumber => .isFalse nofun

/-- What is to be divided by is known by the bits of its exponent. -/
private theorem divides_of_exponent {b : BitVec Format.binary64.numBits}
    (hlow : 1026 ≤ (unpackExponent b).toNat) (hhigh : (unpackExponent b).toNat ≤ 2046) :
    Divides (UnpackedFloat.unpack Format.binary64 b) := by
  -- the exponent is neither of the two that stand for something else
  have hfinite : unpackExponent b ≠ -1#_ := by
    intro heq
    rw [heq] at hhigh
    exact absurd hhigh (by decide)
  have hnormal : unpackExponent b ≠ 0#_ := by
    intro heq
    rw [heq] at hlow
    exact absurd hlow (by decide)
  unfold UnpackedFloat.unpack
  simp only [if_neg hfinite, if_neg hnormal]
  refine .finite ?_
  -- the implicit leading bit makes the mantissa as large as its width
  have hmantissa : 2 ^ 52 ≤ (1#1 ++ unpackMantissa b).toNat := by
    rw [BitVec.toNat_append]
    exact Nat.left_le_or
  have hlog : 52 ≤ Nat.log2 (1#1 ++ unpackMantissa b).toNat :=
    (Nat.le_log2 (Nat.ne_of_gt (Nat.lt_of_lt_of_le (by decide) hmantissa))).mpr hmantissa
  have hbias : (Format.binary64.exponentBias : Int) + Format.binary64.mantissaBitsWithoutImplicit
      = 1075 := rfl
  unfold totalExponent
  rw [hbias]
  omega

/-- One can divide by a double with a complete mantissa if its exponent is not too small. -/
private theorem divides_pack {s : Sign} {m : Nat} {e : Int} {hm : 0 < m} (hbits : Nat.log2 m = 52)
    (hlow : -49 ≤ e) (hhigh : e ≤ maxExponent) :
    Divides (Float.ofModel (.pack (.finite s m e hm))).toModel.unpack := by
  have hhigh : e ≤ 971 := hhigh
  -- what is packed is the biased exponent, which is not too large to be kept
  have hexponent : unpackExponent (UnpackedFloat.pack Format.binary64 (.finite s m e hm))
      = BitVec.ofNat 11 (e + 1023 + 52).toNat := by
    unfold UnpackedFloat.pack
    simp only
    split
    next hbig =>
      exfalso
      simp only [Format.exponentBias] at hbig
      omega
    next =>
      split
      · rw [unpackExponent_packComponents]
        rfl
      next hne => exact absurd (congrArg (· + 1) hbits) hne
  have hvalue : (BitVec.ofNat 11 (e + 1023 + 52).toNat).toNat = (e + 1075).toNat := by
    rw [BitVec.toNat_ofNat]
    omega
  show Divides (UnpackedFloat.unpack Format.binary64 (UnpackedFloat.pack Format.binary64 _))
  refine divides_of_exponent ?_ ?_ <;> rw [hexponent, hvalue] <;> omega

/-- A shift to the right takes away as many bits, if there are more. -/
private theorem log2_shift {m n : Nat} (h : n ≤ Nat.log2 m) (hm : m ≠ 0) :
    Nat.log2 (m / 2 ^ n) = Nat.log2 m - n := by
  have hlow : 2 ^ (Nat.log2 m - n) ≤ m / 2 ^ n := by
    rw [Nat.le_div_iff_mul_le (Nat.two_pow_pos n), ← Nat.pow_add, Nat.sub_add_cancel h]
    exact Nat.log2_self_le hm
  have hhigh : m / 2 ^ n < 2 ^ (Nat.log2 m - n + 1) := by
    rw [Nat.div_lt_iff_lt_mul (Nat.two_pow_pos n), ← Nat.pow_add]
    exact Nat.lt_of_lt_of_le Nat.lt_log2_self (Nat.pow_le_pow_right (by decide) (by omega))
  exact (Nat.log2_eq_iff (Nat.ne_of_gt (Nat.lt_of_lt_of_le (Nat.two_pow_pos _) hlow))).mpr
    ⟨hlow, hhigh⟩

/-- **A number of eight or more remains so** when it is rounded. -/
theorem divides_roundWithAccuracy {s : Sign} {m : Nat} {e : Int} {accuracy : Accuracy}
    (hbits : 52 ≤ Nat.log2 m) (hlow : 4 ≤ totalExponent m e) (hhigh : totalExponent m e ≤ 1023) :
    Divides (Float.ofModel (.pack
      (roundWithAccuracy Format.binary64 s m e accuracy))).toModel.unpack := by
  have hlow : 4 ≤ (Nat.log2 m : Int) + 1 + e := hlow
  have hhigh : (Nat.log2 m : Int) + 1 + e ≤ 1023 := hhigh
  have hm : m ≠ 0 := by
    rintro rfl
    exact absurd hbits (by decide)
  let shift := (Format.binary64.targetExponent (totalExponent m e) - e).toNat
  let em : ExtendedMantissa := ExtendedMantissa.ofMantissaAndAccuracy m accuracy >>> shift
  let rounded := em.roundedMantissa
  have hshift : shift = Nat.log2 m - 52 := by
    show (max ((Nat.log2 m : Int) + 1 + e - 53) (-1074) - e).toNat = _
    omega
  have hmantissa : em.mantissa = m / 2 ^ shift := by
    show (ExtendedMantissa.ofMantissaAndAccuracy m accuracy >>> shift).mantissa = _
    rw [mantissa_shiftRight, mantissa_ofMantissaAndAccuracy]
  have hlog : Nat.log2 em.mantissa = 52 := by
    rw [hmantissa, log2_shift (by omega) hm]
    omega
  -- rounding may carry over into one more bit
  have hrounded : Nat.log2 rounded = 52 ∨ Nat.log2 rounded = 53 := by
    have hle : em.mantissa ≤ rounded := le_roundedMantissa em
    have hge : rounded ≤ em.mantissa + 1 := roundedMantissa_le em
    have hpos : em.mantissa ≠ 0 := fun h => by simp [h] at hlog
    obtain ⟨hbelow, habove⟩ := (Nat.log2_eq_iff hpos).mp hlog
    have hne : rounded ≠ 0 := by omega
    have hlower : 52 ≤ Nat.log2 rounded := (Nat.le_log2 hne).mpr (by omega)
    have hupper : Nat.log2 rounded < 54 := (Nat.log2_lt hne).mpr (by omega)
    omega
  have hne : rounded ≠ 0 := by
    intro hzero
    rw [hzero] at hrounded
    exact absurd hrounded (by decide)
  let shift' :=
    (Format.binary64.targetExponent (totalExponent rounded (e + shift)) - (e + shift)).toNat
  have hshift' : shift' = Nat.log2 rounded - 52 := by
    show (max ((Nat.log2 rounded : Int) + 1 + (e + shift) - 53) (-1074) - (e + shift)).toNat = _
    omega
  have hfinal : Nat.log2
      (ExtendedMantissa.ofMantissaAndAccuracy rounded .exact >>> shift').mantissa = 52 := by
    rw [mantissa_shiftRight, mantissa_ofMantissaAndAccuracy, log2_shift (by omega) hne]
    omega
  unfold roundWithAccuracy
  simp only
  split
  next hzero =>
    have hzero : (ExtendedMantissa.ofMantissaAndAccuracy rounded .exact >>> shift').mantissa = 0 :=
      hzero
    simp [hzero] at hfinal
  next =>
    refine divides_pack hfinal ?_ ?_
    · show -49 ≤ e + shift + shift'
      omega
    · show e + shift + shift' ≤ 971
      omega

/-- One can divide by the first powers of ten. -/
private theorem divides_small :
    ∀ e < 23, e ≠ 0 → Divides (Float.ofScientific 1 false e).toModel.unpack := by
  decide +kernel

/-- One can divide by the largest power of ten. -/
private theorem divides_largest : Divides (Float.ofScientific 1 false 308).toModel.unpack := by
  decide +kernel

/-- **One can divide by every power of ten** that a double can hold. -/
theorem divides_powerOfTen {e : Nat} (h : e ≤ 308) (he : e ≠ 0) :
    Divides (Float.ofScientific 1 false e).toModel.unpack := by
  by_cases hsmall : e < 23
  · exact divides_small e hsmall he
  by_cases hlargest : e = 308
  · rw [hlargest]
    exact divides_largest
  have hvalue : Float.ofScientific 1 false e = .ofModel (.pack (roundWithAccuracy Format.binary64
      (.positive * .positive) (1 <<< 53 * 10 ^ e) (-53 + 0) .exact)) := by
    -- the general routine is opened at an exponent that it neither rejects nor divides by
    unfold Float.ofScientific
    rw [dif_neg (by omega)]
    show Float.ofModel (.pack (UnpackedFloat.ofScientific Format.binary64 1 (Int.ofNat e))) = _
    unfold UnpackedFloat.ofScientific
    have hbelow : ¬ Int.ofNat e > 2 ^ Format.binary64.exponentBits := by
      show ¬ (2 : Int) ^ 11 < e
      omega
    have habove : ¬ Int.ofNat e < -(2 ^ Format.binary64.exponentBits + (Nat.log2 1 : Int)) := by
      show ¬ (e : Int) < -((2 : Int) ^ 11 + 0)
      omega
    have hnonneg : 0 ≤ Int.ofNat e := Int.natCast_nonneg e
    rw [dif_neg (by decide), if_neg hbelow, if_neg habove, if_pos hnonneg]
    rfl
  have hpos : 0 < 10 ^ e := Nat.pow_pos (by decide)
  have hlow : 3 ≤ Nat.log2 (10 ^ e) := by
    rw [Nat.le_log2 hpos.ne']
    calc 2 ^ 3 ≤ 10 ^ 1 := by decide
      _ ≤ 10 ^ e := Nat.pow_le_pow_right (by decide) (by omega)
  have hhigh : Nat.log2 (10 ^ e) < 1023 := by
    rw [Nat.log2_lt hpos.ne']
    calc 10 ^ e ≤ 10 ^ 307 := Nat.pow_le_pow_right (by decide) (by omega)
      _ < 2 ^ 1023 := by decide +kernel
  -- the mantissa is shifted by as many bits as the accuracy takes away again
  have hlog : Nat.log2 (1 <<< 53 * 10 ^ e) = 53 + Nat.log2 (10 ^ e) := by
    have hle : 2 ^ 53 ≤ 1 <<< 53 * 10 ^ e := Nat.le_mul_of_pos_right _ hpos
    have hne : 1 <<< 53 * 10 ^ e ≠ 0 := Nat.ne_of_gt (Nat.lt_of_lt_of_le (by decide) hle)
    have hbits := (Nat.le_log2 hne).mpr hle
    have hshift := log2_shift hbits hne
    have hdiv : 1 <<< 53 * 10 ^ e / 2 ^ 53 = 10 ^ e := Nat.mul_div_cancel_left _ (by decide)
    rw [hdiv] at hshift
    omega
  rw [hvalue]
  refine divides_roundWithAccuracy (by omega) ?_ ?_ <;> unfold totalExponent <;> omega

/-- What one can divide by is finite. -/
theorem isFinite_of_divides {x : Float} (h : Divides x.toModel.unpack) : x.isFinite = true := by
  show x.toModel.unpack.isFinite = true
  cases hu : x.toModel.unpack with
  | finite s m e hm => rfl
  | _ => rw [hu] at h; cases h

end LicenseForecast.Decimal

namespace LicenseForecast.Token

open Decimal

/-! ### Numbers of a text -/

/-- Division by a power of ten keeps a double finite. -/
theorem isFinite_divPower {x : Float} {e : Nat} (hx : x.isFinite = true) (he : e ≠ 0) :
    (divPower x e).isFinite = true := by
  fun_induction divPower x e with
  | case1 x e hle => exact isFinite_div hx (divides_powerOfTen hle he)
  | case2 => exact hx
  | case3 x e hgt _ ih =>
    exact ih (isFinite_div hx divides_largest) (by omega)

/-- **A number that is read is finite.** -/
theorem Significand.isFinite_of_toFloat? {s : Significand} {x : Float} (h : s.toFloat? = some x) :
    x.isFinite = true := by
  have hvalue := isFinite_toFloat s.value.toUInt64
  unfold toFloat? at h
  simp only at h
  -- a negative exponent divides, step by step; any other multiplies once
  split at h
  next hneg =>
    cases h
    exact isFinite_divPower hvalue (by omega)
  next hnonneg =>
    split at h
    next hle =>
      have hpower : (Float.ofScientific 1 false s.exponent.natAbs).isFinite = true := by
        by_cases he : s.exponent.natAbs = 0
        · rw [he]
          decide +kernel
        · exact isFinite_of_divides (divides_powerOfTen (by omega) he)
      split at h
      next => cases h
      next hinf =>
        cases h
        exact isFinite_mul hvalue hpower (Bool.eq_false_iff.mpr hinf)
    next =>
      split at h
      next => cases h; exact hvalue
      next => cases h

end LicenseForecast.Token
