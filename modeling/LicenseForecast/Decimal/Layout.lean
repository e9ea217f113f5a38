import LicenseForecast.Decimal.Shortest

namespace LicenseForecast.Decimal

/-!
# Number text — how a double is written out

The digits come from `Binary.shortest`; a `Layout` decides where the point goes:

* `Layout.json` — the text of a number in a JSON document;
* `Layout.plain` — the text of a number in a message.
-/

/-- The choices that turn digits into text. -/
structure Layout where
  /-- Which of two equally near digit strings is taken. -/
  tie : Tie
  /-- Whether a number whose first digit stands for `10^e` is written without an exponent. -/
  positional : Int → Bool
  /-- Whether a whole number written without an exponent ends in `.0`. -/
  pointZero : Bool

/-- `n` zeros. -/
def zeros (n : Nat) : String := String.ofList (List.replicate n '0')

/-- `digits · 10^exponent` without an exponent. -/
def positionalText (pointZero : Bool) (digits : String) (exponent : Int) : String :=
  if 0 ≤ exponent then
    digits ++ zeros exponent.toNat ++ (if pointZero then ".0" else "")
  else
    let places := (-exponent).toNat
    if places < digits.length then
      let cut := digits.length - places
      String.ofList (digits.toList.take cut) ++ "." ++ String.ofList (digits.toList.drop cut)
    else
      "0." ++ zeros (places - digits.length) ++ digits

/-- `digits` with a point after the first digit and the exponent `e`, its sign always shown. -/
def scientificText (digits : String) (e : Int) : String :=
  let head := String.ofList (digits.toList.take 1)
  let tail := String.ofList (digits.toList.drop 1)
  let point := if tail.isEmpty then "" else "."
  let sign := if e < 0 then "-" else "+"
  head ++ point ++ tail ++ "e" ++ sign ++ toString e.natAbs

/-- The text of a finite number of the given bits, the sign bit left out. -/
def Layout.magnitude (layout : Layout) (bits : Nat) : String :=
  if bits = 0 then
    positionalText layout.pointZero "0" 0
  else
    let d := (Binary.ofBits bits).shortest layout.tie
    let digits := toString d.digits
    let e := d.exponent + (digits.length - 1 : Nat)
    if layout.positional e then
      positionalText layout.pointZero digits d.exponent
    else
      scientificText digits e

/-- The text of a double.  Zero keeps its sign. -/
def Layout.text (layout : Layout) (x : Float) : String :=
  if x.isNaN then "NaN"
  else
    let bits := x.toBits.toNat
    let sign := if signBit ≤ bits then "-" else ""
    if x.isInf then sign ++ "inf" else sign ++ layout.magnitude (bits % signBit)

/-- Numbers of a JSON document: positional from `0.00001` up to sixteen digits before the point,
    and always recognisable as not being an integer. -/
def Layout.json : Layout where
  tie := .even
  positional e := -5 ≤ e && e ≤ 15
  pointZero := true

/-- Numbers of a message: never an exponent, and no fraction where none is needed. -/
def Layout.plain : Layout where
  tie := .up
  positional _ := true
  pointZero := false

example : Layout.json.text 1.0 = "1.0" := by decide +kernel

example : Layout.json.text 1.5e300 = "1.5e+300" := by decide +kernel

example : Layout.json.text 0.00001 = "0.00001" := by decide +kernel

example : Layout.plain.text 1e16 = "10000000000000000" := by decide +kernel

example : Layout.plain.text (-0.0) = "-0" := by decide +kernel

end LicenseForecast.Decimal
