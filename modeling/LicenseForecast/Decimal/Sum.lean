import LicenseForecast.Decimal.Integer

namespace LicenseForecast.Decimal

/-!
# Sums in 64 bits

Numbers are added up one after another, and each sum on the way is checked: where one does not fit
into the 64 bits that it is kept in, the program stops.  Nothing comes of such a sum, not even if
the numbers still to be added would bring it back.
-/

/-- A sum on the way has left its 64 bits, and the program stops there. -/
structure Overflow
deriving DecidableEq, Repr, Inhabited

/-- One number more, in 64 bits. -/
def addUnsigned (total n : Nat) : Except Overflow Nat :=
  if total + n ≤ unsignedMax then .ok (total + n) else .error ⟨⟩

/-- The sum of some numbers, in 64 bits. -/
def sumUnsigned (numbers : List Nat) : Except Overflow Nat := numbers.foldlM addUnsigned 0

/-- What 64 bits with a sign can hold. -/
def FitsSigned (n : Int) : Prop := signedMin ≤ n ∧ n ≤ signedMax

instance (n : Int) : Decidable (FitsSigned n) :=
  inferInstanceAs (Decidable (signedMin ≤ n ∧ n ≤ signedMax))

/-- One number more, in 64 bits with a sign. -/
def addSigned (total n : Int) : Except Overflow Int :=
  if FitsSigned (total + n) then .ok (total + n) else .error ⟨⟩

/-- The sum of some numbers, in 64 bits with a sign. -/
def sumSigned (numbers : List Int) : Except Overflow Int := numbers.foldlM addSigned 0

-- the total would fit, but the sum is never brought back
example : (sumSigned [signedMax, 1, -1]).toOption = none := by decide +kernel

example : (sumSigned [signedMax, -1, 1]).toOption = some (signedMax : Int) := by decide +kernel

end LicenseForecast.Decimal
