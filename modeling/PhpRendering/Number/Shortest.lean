import PhpRendering.Number.Binary64

/-!
# Shortest decimal text of a binary64 number

A number is written with the fewest decimal digits that read back as the same
number, and of those the digits nearest to it. Positional notation is used from
`1e-4` up to `1e16`; outside it the exponent has a sign and at least two digits.
-/

namespace PhpRendering.Number

structure Decimal where
  digits : Nat
  exponent : Int
deriving DecidableEq, Repr, Inhabited

namespace Decimal

def withoutTrailingZeros : Nat → Decimal → Decimal
  | 0, decimal => decimal
  | limit + 1, decimal =>
      if decimal.digits ≠ 0 ∧ decimal.digits % 10 = 0 then
        withoutTrailingZeros limit ⟨decimal.digits / 10, decimal.exponent + 1⟩
      else decimal

end Decimal

/-- The positive reals that round to one number, all over one denominator. The
ends belong to the interval when the significand is even. -/
structure RoundingInterval where
  lower : Nat
  value : Nat
  upper : Nat
  denominator : Nat
  closed : Bool
deriving Repr

namespace RoundingInterval

/-- The rounding interval of `significand * 2 ^ exponent`, in quarters of the
unit in the last place. Below a power of two the numbers lie twice as close. -/
def ofFinite (significand : Nat) (exponent : Int) : RoundingInterval :=
  let below :=
    if significand = Binary64.significandBound / 2 ∧ Binary64.leastExponent < exponent then 1 else 2
  let quarter := exponent - 2
  let scale := Nat.pow 2 quarter.toNat
  { lower := (4 * significand - below) * scale
    value := 4 * significand * scale
    upper := (4 * significand + 2) * scale
    denominator := Nat.pow 2 (-quarter).toNat
    closed := significand % 2 == 0 }

def dividedByPower (interval : RoundingInterval) (exponent : Int) : RoundingInterval :=
  let factor := Nat.pow 10 (-exponent).toNat
  { interval with
    lower := interval.lower * factor
    value := interval.value * factor
    upper := interval.upper * factor
    denominator := interval.denominator * Nat.pow 10 exponent.toNat }

def holds (interval : RoundingInterval) (number : Nat) : Bool :=
  let scaled := number * interval.denominator
  if interval.closed then interval.lower ≤ scaled && scaled ≤ interval.upper
  else interval.lower < scaled && scaled < interval.upper

/-- The positive natural number of the interval nearest to its value; a tie goes
to the even one. Only the two neighbours of the value can be nearest. -/
def nearest? (interval : RoundingInterval) : Option Nat :=
  let floor := interval.value / interval.denominator
  let lowerHit := floor ≠ 0 && interval.holds floor
  let upperHit := interval.holds (floor + 1)
  match lowerHit, upperHit with
  | true, true => some (roundHalfEven interval.value interval.denominator)
  | true, false => some floor
  | false, true => some (floor + 1)
  | false, false => none

def shortestFrom (interval : RoundingInterval) : Nat → Int → Decimal
  | 0, exponent => ⟨interval.value / interval.denominator, exponent⟩
  | steps + 1, exponent =>
      match (interval.dividedByPower exponent).nearest? with
      | some digits => ⟨digits, exponent⟩
      | none => shortestFrom interval steps (exponent - 1)

end RoundingInterval

/-- The shortest decimal of the positive number `significand * 2 ^ exponent`.
The search starts above the number's leading digit and seventeen digits always
suffice. -/
def shortestDecimal (significand : Nat) (exponent : Int) : Decimal :=
  let bits : Int := significand.log2 + exponent
  let start := bits * 30103 / 100000 + 2
  ((RoundingInterval.ofFinite significand exponent).shortestFrom 24 start).withoutTrailingZeros 20

def atLeastTwoDigits (number : Nat) : String :=
  if number < 10 then "0" ++ toString number else toString number

/-- The text of a positive decimal. The point stands after the first `places`
digits of the number. -/
def Decimal.text (decimal : Decimal) : String :=
  let digits := Nat.toDigits 10 decimal.digits
  let length := digits.length
  let places : Int := length + decimal.exponent
  if -4 < places ∧ places ≤ 16 then
    if places ≤ 0 then
      "0." ++ String.ofList (List.replicate (-places).toNat '0' ++ digits)
    else if places.toNat < length then
      String.ofList (digits.take places.toNat) ++ "." ++ String.ofList (digits.drop places.toNat)
    else
      String.ofList (digits ++ List.replicate (places.toNat - length) '0') ++ ".0"
  else
    let power := places - 1
    let sign := if power < 0 then "-" else "+"
    let tail := digits.drop 1
    let fraction := if tail.isEmpty then "" else "." ++ String.ofList tail
    String.ofList (digits.take 1) ++ fraction ++ "e" ++ sign ++ atLeastTwoDigits power.natAbs

def Binary64.text : Binary64 → String
  | .infinite negative => if negative then "-inf" else "inf"
  | .finite negative significand exponent =>
      let sign := if negative then "-" else ""
      if significand = 0 then sign ++ "0.0"
      else sign ++ (shortestDecimal significand exponent).text

end PhpRendering.Number
