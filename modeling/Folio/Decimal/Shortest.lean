import Folio.Decimal.Binary64

/-!
# The shortest decimal form

Of all decimal numbers that are rounded to a given binary number, the form
chosen has the fewest digits, and among those it is the nearest.  The search
goes through grids of ever finer decimals; on each grid only the two neighbours
of the number can be the nearest.
-/

namespace Folio.Decimal

structure DecimalForm where
  digits : Nat
  exponent : Int
  deriving DecidableEq, Repr

def compareScaled (a : Nat) (i : Int) (n : Nat) (j : Int) : Ordering :=
  compare (a * tenTo i * twoTo (-j)) (n * twoTo j * tenTo (-i))

/-- Whether the gap below a number is half the gap above it: this is so at a
power of two that is not among the smallest numbers. -/
def isNarrowBelow (significand : Nat) (exponent : Int) : Bool :=
  significand == twoTo 52 && leastExponent < exponent

/-- Whether a decimal is rounded to the number `significand * 2 ^ exponent`: it
lies between the midpoints to the neighbours, or on one of them if the
significand is even. -/
def readsBack (significand : Nat) (exponent : Int) (decimal : DecimalForm) : Bool :=
  let below := if isNarrowBelow significand exponent then 4 * significand - 1
    else 4 * significand - 2
  let above := 4 * significand + 2
  let inclusive := significand % 2 == 0
  let lower := compareScaled decimal.digits decimal.exponent below (exponent - 2)
  let upper := compareScaled decimal.digits decimal.exponent above (exponent - 2)
  (lower == .gt || inclusive && lower == .eq) && (upper == .lt || inclusive && upper == .eq)

/-- The least power of ten above a number, searched downward from a guess that
is large enough. -/
def leastPowerAbove (significand : Nat) (exponent : Int) : Nat → Int → Int
  | 0, guess => guess
  | steps + 1, guess =>
      if compareScaled 1 (guess - 1) significand exponent == .gt then
        leastPowerAbove significand exponent steps (guess - 1)
      else guess

/-- The decimal exponent at which the digits of a number begin. -/
def magnitude (significand : Nat) (exponent : Int) : Int :=
  let bits : Int := (Nat.log2 significand : Int) + 1 + exponent
  leastPowerAbove significand exponent 8 (bits * 30103 / 100000 + 2)

/-- The number in units of a power of ten, rounded down. -/
def floorAt (significand : Nat) (exponent unit : Int) : Nat :=
  (significand * twoTo exponent * tenTo (-unit)) / (tenTo unit * twoTo (-exponent))

/-- The nearer of the two neighbours of a number on a decimal grid, among those
that are rounded to the number; of two equally near ones the even. -/
def nearestOnGrid? (significand : Nat) (exponent unit : Int) : Option DecimalForm :=
  let below : DecimalForm := ⟨floorAt significand exponent unit, unit⟩
  let above : DecimalForm := ⟨below.digits + 1, unit⟩
  match readsBack significand exponent below, readsBack significand exponent above with
  | true, true =>
      match compareScaled (below.digits + above.digits) unit (2 * significand) exponent with
      | .gt => some below
      | .lt => some above
      | .eq => some (if below.digits % 2 = 0 then below else above)
  | true, false => some below
  | false, true => some above
  | false, false => none

/-- Move the zeros at the end of the digits into the exponent. -/
def dropZeros : Nat → DecimalForm → DecimalForm
  | 0, decimal => decimal
  | steps + 1, decimal =>
      if decimal.digits % 10 = 0 then dropZeros steps ⟨decimal.digits / 10, decimal.exponent + 1⟩
      else decimal

/-- The shortest decimal form of a number that is not zero.  Seventeen digits
are always enough. -/
def shortest (significand : Nat) (exponent : Int) : DecimalForm :=
  let start := magnitude significand exponent
  let found := (List.range 17).findSome? fun (count : Nat) =>
    nearestOnGrid? significand exponent (start - (count + 1 : Nat))
  dropZeros 20 (found.getD ⟨floorAt significand exponent (start - 17), start - 17⟩)

end Folio.Decimal
