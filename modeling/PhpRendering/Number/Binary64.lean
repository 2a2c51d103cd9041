/-!
# Binary64 numbers

A number read from decimal text is rounded once to the binary64 format, a
significand below `2 ^ 53` times a power of two, or infinity. All arithmetic is
exact arithmetic on natural numbers, so each definition unfolds in a proof.
-/

namespace PhpRendering.Number

/-- A binary64 number other than a NaN: a sign with either a significand times
a power of two or infinity. -/
inductive Binary64 where
  | finite (negative : Bool) (significand : Nat) (exponent : Int)
  | infinite (negative : Bool)
deriving DecidableEq, Repr, Inhabited

/-- The quotient rounded to the nearest natural number, a half going to the
even neighbour. -/
def roundHalfEven (numerator denominator : Nat) : Nat :=
  let quotient := numerator / denominator
  let doubledRest := 2 * (numerator % denominator)
  if doubledRest < denominator then quotient
  else if denominator < doubledRest then quotient + 1
  else quotient + quotient % 2

/-- How many decimal digits a natural number has; zero has one. -/
def decimalLength (number : Nat) : Nat :=
  (Nat.toDigits 10 number).length

namespace Binary64

/-- Significands of normal numbers lie between half of this bound and it. -/
def significandBound : Nat := Nat.pow 2 53

def leastExponent : Int := -1074

def greatestExponent : Int := 971

def scaledQuotient (numerator denominator : Nat) (exponent : Int) : Nat × Nat :=
  if 0 ≤ exponent then (numerator, denominator * Nat.pow 2 exponent.toNat)
  else (numerator * Nat.pow 2 (-exponent).toNat, denominator)

/-- The exponent at which a positive quotient is rounded. The estimate from the
two lengths in bits is at most one too small. -/
def roundingExponent (numerator denominator : Nat) : Int :=
  let estimate : Int := (numerator.log2 : Int) - denominator.log2 - 53
  let bounded := max estimate leastExponent
  let (top, bottom) := scaledQuotient numerator denominator bounded
  if significandBound ≤ top / bottom then bounded + 1 else bounded

def ofQuotient (negative : Bool) (numerator denominator : Nat) : Binary64 :=
  let exponent := roundingExponent numerator denominator
  let (top, bottom) := scaledQuotient numerator denominator exponent
  let rounded := roundHalfEven top bottom
  let (significand, exponent) :=
    if rounded = significandBound then (significandBound / 2, exponent + 1) else (rounded, exponent)
  if greatestExponent < exponent then .infinite negative
  else .finite negative significand exponent

/-- The binary64 number nearest to `digits * 10 ^ exponent`. Exponents far
outside the range of the format are settled without computing the power. -/
def ofDecimal (negative : Bool) (digits : Nat) (exponent : Int) : Binary64 :=
  let magnitude : Int := decimalLength digits + exponent
  if digits = 0 ∨ magnitude < -330 then .finite negative 0 leastExponent
  else if 310 < magnitude then .infinite negative
  else if 0 ≤ exponent then ofQuotient negative (digits * Nat.pow 10 exponent.toNat) 1
  else ofQuotient negative digits (Nat.pow 10 (-exponent).toNat)

def isZero : Binary64 → Bool
  | .finite _ significand _ => significand == 0
  | .infinite _ => false

def toInt? : Binary64 → Option Int
  | .infinite _ => none
  | .finite negative significand exponent =>
      let signed (magnitude : Nat) : Int := if negative then -(magnitude : Int) else magnitude
      if 0 ≤ exponent then some (signed (significand * Nat.pow 2 exponent.toNat))
      else
        let divisor := Nat.pow 2 (-exponent).toNat
        if significand % divisor = 0 then some (signed (significand / divisor)) else none

/-- The binary64 number nearest to an integer, unless the integer is out of range. -/
def ofInt? (number : Int) : Option Binary64 :=
  if number = 0 then some (.finite false 0 leastExponent)
  else
    match ofQuotient (number < 0) number.natAbs 1 with
    | .infinite _ => none
    | nearest => some nearest

/-- The sum of two finite numbers. It is exact before it is rounded once; only two
negative zeros have a negative zero as their sum. -/
def finiteSum (negative : Bool) (significand : Nat) (exponent : Int)
    (negativeToo : Bool) (significandToo : Nat) (exponentToo : Int) : Binary64 :=
  let least := min exponent exponentToo
  let scaled (isNegative : Bool) (digits : Nat) (power : Int) : Int :=
    let magnitude : Int := digits * Nat.pow 2 (power - least).toNat
    if isNegative then -magnitude else magnitude
  let total := scaled negative significand exponent + scaled negativeToo significandToo exponentToo
  if total = 0 then .finite (negative && negativeToo) 0 leastExponent
  else
    ofQuotient (total < 0) (total.natAbs * Nat.pow 2 least.toNat) (Nat.pow 2 (-least).toNat)

/-- The sum of two numbers. Infinities of opposite signs have none. -/
def plus : Binary64 → Binary64 → Option Binary64
  | .finite negative significand exponent, .finite negativeToo significandToo exponentToo =>
      some (finiteSum negative significand exponent negativeToo significandToo exponentToo)
  | .infinite negative, .infinite negativeToo =>
      if negative = negativeToo then some (.infinite negative) else none
  | .infinite negative, .finite .. => some (.infinite negative)
  | .finite .., .infinite negative => some (.infinite negative)

end Binary64

end PhpRendering.Number
