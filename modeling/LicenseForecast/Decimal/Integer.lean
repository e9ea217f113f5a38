namespace LicenseForecast.Decimal

/-!
# Integers and doubles

Conversions between doubles and the whole numbers that 64 bits can hold.
-/

/-- The largest whole number that 64 bits can count to. -/
def unsignedMax : Nat := 18446744073709551615

/-- The largest whole number that 64 bits with a sign can hold. -/
def signedMax : Nat := 9223372036854775807

/-- The smallest whole number that 64 bits with a sign can hold. -/
def signedMin : Int := -9223372036854775808

/-- The double nearest to an integer of at most 64 bits, an even mantissa breaking ties. -/
def ofInt (n : Int) : Float :=
  if n < 0 then -(n.natAbs.toUInt64.toFloat) else n.natAbs.toUInt64.toFloat

/-- The largest whole number not above `x`, between zero and what 64 bits can hold. -/
def floor (x : Float) : Nat := x.toUInt64.toNat

/-- The smallest whole number not below `x`, between zero and what 64 bits can hold. -/
def ceil (x : Float) : Nat :=
  let n := x.toUInt64
  if n.toFloat < x then min unsignedMax (n.toNat + 1) else n.toNat

example : ceil 2.5 = 3 ∧ ceil 2.0 = 2 ∧ ceil (-0.5) = 0 ∧ ceil 1e300 = unsignedMax := by
  decide +kernel

end LicenseForecast.Decimal
