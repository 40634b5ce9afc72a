import Folio.Text.Blank
import Folio.Text.Digit
import Folio.Text.Quoted

/-!
# Whole numbers written as text

A text of digits, possibly between blanks, stands for a whole number.  Decimal
digits of every script may be mixed, and leading zeros do not matter.  The
number of digits is limited, and a text with a digit that has no decimal value
is refused although it looks numeric.
-/

namespace Folio.Text

/-- The largest number of digits that is converted. -/
def digitLimit : Nat := 4300

/-- Why a text that looks like a whole number cannot be converted. -/
inductive NumeralFault where
  | tooManyDigits (count : Nat)
  /-- Some character of the text has no decimal value. -/
  | malformed (text : String)
  deriving DecidableEq, Repr

/-- The wording of a fault.  A malformed text is shown quoted, and the quoted
form is cut after two hundred characters. -/
def NumeralFault.message : NumeralFault → String
  | .tooManyDigits count =>
      s!"Exceeds the limit ({digitLimit} digits) for integer string conversion: value has " ++
        s!"{count} digits; use sys.set_int_max_str_digits() to increase the limit"
  | .malformed text =>
      "invalid literal for int() with base 10: " ++
        String.ofList ((quoted text).toList.take 200)

/-- Whether a text between its blanks consists of digits, at least one. -/
def looksNumeric (s : String) : Bool :=
  let digits := trim s.toList
  !digits.isEmpty && digits.all isDigit

/-- The blanks that may surround the digits of a number: those of the class
`blank` except the four ASCII information separators. -/
def isNumeralBlank (c : Char) : Bool :=
  isBlank c && !(0x1C ≤ c.toNat && c.toNat ≤ 0x1F)

/-- The leading decimal digits of a text, as values, and the text after them. -/
def spanDigits : List Char → List Nat × List Char
  | [] => ([], [])
  | c :: rest =>
      match digitValue? c with
      | none => ([], c :: rest)
      | some value => (value :: (spanDigits rest).1, (spanDigits rest).2)

/-- The number that decimal digits write, most significant first. -/
def ofDigits (digits : List Nat) : Nat :=
  digits.foldl (fun value digit => 10 * value + digit) 0

/-- Read the whole number a text of digits stands for.  The count of digits is
judged before what follows them. -/
def readNumeral (s : String) : Except NumeralFault Nat :=
  let (digits, rest) := spanDigits (s.toList.dropWhile isNumeralBlank)
  if digits.length > digitLimit then .error (.tooManyDigits digits.length)
  else if digits.isEmpty || !rest.all isNumeralBlank then .error (.malformed s)
  else .ok (ofDigits digits)

end Folio.Text
