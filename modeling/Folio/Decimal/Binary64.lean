/-!
# Binary floating-point numbers of 64 bits

A finite number is a significand times a power of two.  A decimal number is
rounded to the nearest such number, and of two that are equally near the one
with the even significand is taken.  All arithmetic is on whole numbers.
-/

namespace Folio.Decimal

inductive Binary64 where
  /-- The number `significand * 2 ^ exponent`, or its negative. -/
  | finite (negative : Bool) (significand : Nat) (exponent : Int)
  | infinite (negative : Bool)
  | notANumber
  deriving DecidableEq, Repr

def leastExponent : Int := -1074

def greatestExponent : Int := 971

/-- A power of two; one if the exponent is negative. -/
def twoTo (exponent : Int) : Nat := Nat.pow 2 exponent.toNat

/-- A power of ten; one if the exponent is negative. -/
def tenTo (exponent : Int) : Nat := Nat.pow 10 exponent.toNat

/-- A quotient rounded to the nearest whole number, a half to the even one. -/
def roundDiv (numerator denominator : Nat) : Nat :=
  let quotient := numerator / denominator
  let rest := numerator % denominator
  if 2 * rest < denominator then quotient
  else if denominator < 2 * rest then quotient + 1
  else if quotient % 2 = 0 then quotient
  else quotient + 1

def scaledDiv (numerator denominator : Nat) (exponent : Int) : Nat :=
  roundDiv (numerator * twoTo (-exponent)) (denominator * twoTo exponent)

/-- The exponent for which a fraction that is not zero has a significand of 53
bits, or the least exponent if that is greater. -/
def exponentFor (numerator denominator : Nat) : Int :=
  let estimate : Int := (Nat.log2 numerator : Int) - Nat.log2 denominator - 52
  let fits :=
    denominator * twoTo estimate * twoTo 52 ≤ numerator * twoTo (-estimate)
  max leastExponent (if fits then estimate else estimate - 1)

/-- The number nearest to a fraction that is not zero. -/
def Binary64.ofFraction (negative : Bool) (numerator denominator : Nat) : Binary64 :=
  let exponent := exponentFor numerator denominator
  let rounded := scaledDiv numerator denominator exponent
  let (significand, scale) :=
    if rounded = twoTo 53 then (twoTo 52, exponent + 1) else (rounded, exponent)
  if greatestExponent < scale then .infinite negative else .finite negative significand scale

/-- How many decimal digits a number has; zero has none. -/
def digitCount (n : Nat) : Nat :=
  if n = 0 then 0 else (Nat.toDigits 10 n).length

/-- The number nearest to `digits * 10 ^ scale`.  Magnitudes far outside the
range are decided by the number of digits alone. -/
def Binary64.ofDecimal (negative : Bool) (digits : Nat) (scale : Int) : Binary64 :=
  let magnitude : Int := digitCount digits + scale
  if digits = 0 ∨ magnitude < -330 then .finite negative 0 leastExponent
  else if 310 < magnitude then .infinite negative
  else .ofFraction negative (digits * tenTo scale) (tenTo (-scale))

def Binary64.isZero : Binary64 → Bool
  | .finite _ significand _ => significand == 0
  | _ => false

end Folio.Decimal
