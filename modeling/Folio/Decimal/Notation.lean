import Folio.Decimal.Shortest

/-!
# Notation of floating-point numbers

A number is written with the fewest digits that identify it: positionally, with
at least one place after the point, as long as the leading digit stands between
the fourth place after the point and the sixteenth before it; otherwise with an
exponent that has a sign and at least two digits.
-/

namespace Folio.Decimal

/-- The exponent of a number in scientific notation. -/
def exponentText (exponent : Int) : List Char :=
  let digits := Nat.toDigits 10 exponent.natAbs
  (if exponent < 0 then '-' else '+') ::
    (List.replicate (2 - digits.length) '0' ++ digits)

/-- Digits whose first one has the given decimal exponent. -/
def positional (digits : List Char) (leading : Int) : List Char :=
  if leading < 0 then
    '0' :: '.' :: (List.replicate ((-leading).toNat - 1) '0' ++ digits)
  else
    let whole := leading.toNat + 1
    let padded := digits ++ List.replicate (whole - digits.length) '0'
    let fraction := padded.drop whole
    padded.take whole ++ '.' :: (if fraction.isEmpty then ['0'] else fraction)

/-- Digits with one place before the point, times a power of ten. -/
def scientific (digits : List Char) (leading : Int) : List Char :=
  digits.take 1 ++ (if (digits.drop 1).isEmpty then [] else '.' :: digits.drop 1) ++
    'e' :: exponentText leading

def magnitudeText (significand : Nat) (exponent : Int) : List Char :=
  let decimal := shortest significand exponent
  let digits := Nat.toDigits 10 decimal.digits
  let leading := decimal.exponent + digits.length - 1
  if -4 ≤ leading ∧ leading < 16 then positional digits leading
  else scientific digits leading

def Binary64.text : Binary64 → String
  | .notANumber => "nan"
  | .infinite negative => (if negative then "-" else "") ++ "inf"
  | .finite negative significand exponent =>
      (if negative then "-" else "") ++
        (if significand = 0 then "0.0" else String.ofList (magnitudeText significand exponent))

end Folio.Decimal
