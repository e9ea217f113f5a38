namespace LicenseForecast.Decimal

/-!
# Shortest decimals — the fewest digits that read back

A positive binary number `m · 2^q` stands for every real that rounds to it.  Among the decimals
in that range `shortest` picks one with as few digits as possible and, of those, the nearest:

* `Binary.ofBits` decodes the bits of a positive finite double;
* `Binary.onGrid` looks for a multiple of `10^k` in the range, in exact `Nat` arithmetic;
* `Binary.shortest` tries the grids from coarse to fine.
-/

/-- What to do with a value halfway between two decimals of the same length. -/
inductive Tie where
  | even
  | up
deriving DecidableEq, Repr

/-- A positive binary number `mantissa · 2^exponent`.  `narrowBelow` tells that the number
    below it is only half as far away as the number above it. -/
structure Binary where
  mantissa : Nat
  exponent : Int
  narrowBelow : Bool
deriving DecidableEq, Repr

/-- A decimal number `digits · 10^exponent`. -/
structure Numeral where
  digits : Nat
  exponent : Int
deriving DecidableEq, Repr

/-- How many fractions a double-precision number can have. -/
def fractions : Nat := 4503599627370496

/-- How many exponents it can have. -/
def exponents : Nat := 2048

/-- The bit that stands for a minus sign. -/
def signBit : Nat := fractions * exponents

/-- The number with the given double-precision bits, the sign bit left out. -/
def Binary.ofBits (bits : Nat) : Binary :=
  let fraction := bits % fractions
  match bits / fractions % exponents with
  | 0 => ⟨fraction, -1074, false⟩
  | e + 1 => ⟨fractions + fraction, (e : Int) - 1074, fraction == 0 && e != 0⟩

/-- The multiple of `10^k` that stands for `v`, if `10^k` is fine enough to have one.  Everything
    is scaled so that `v` is `value`, a unit of `10^k` is `unit` and a quarter of the distance to
    the next binary number is `quarter`. -/
def Binary.onGrid (tie : Tie) (v : Binary) (k : Int) : Option Nat :=
  let quarter := Nat.pow 2 (v.exponent - 2).toNat * Nat.pow 10 (-k).toNat
  let unit := Nat.pow 2 (2 - v.exponent).toNat * Nat.pow 10 k.toNat
  let value := 4 * v.mantissa * quarter
  -- reals halfway to a neighbour round to the even one of the two
  let low := value - (if v.narrowBelow then quarter else 2 * quarter)
  let high := value + 2 * quarter
  let inside (x : Nat) : Bool :=
    if v.mantissa % 2 = 0 then low ≤ x && x ≤ high else low < x && x < high
  let below := value / unit
  match inside (below * unit), inside ((below + 1) * unit) with
  | false, false => none
  | true, false => some below
  | false, true => some (below + 1)
  | true, true =>
    match compare (2 * value) ((2 * below + 1) * unit) with
    | .lt => some below
    | .gt => some (below + 1)
    | .eq =>
      match tie with
      | .up => some (below + 1)
      | .even => some (below + below % 2)

/-- The first grid with a hit, going down from `10^k`. -/
def Binary.search (tie : Tie) (v : Binary) : Nat → Int → Numeral
  | 0, k => ⟨(v.onGrid tie k).getD 0, k⟩
  | n + 1, k =>
    match v.onGrid tie k with
    | some digits => ⟨digits, k⟩
    | none => v.search tie n (k - 1)

/-- The shortest decimal that reads back as `v`, the nearest one of its length.  Seventeen digits
    always suffice, and the first grid is at most three powers of ten above the leading digit. -/
def Binary.shortest (tie : Tie) (v : Binary) : Numeral :=
  let bitLength := (Nat.log2 v.mantissa : Int) + 1 + v.exponent
  v.search tie 24 (bitLength * 30103 / 100000 + 1)

example : (Binary.ofBits (0.1 : Float).toBits.toNat).shortest .even = ⟨1, -1⟩ := by decide +kernel

example : (Binary.ofBits 1).shortest .even = ⟨5, -324⟩ := by decide +kernel

end LicenseForecast.Decimal
