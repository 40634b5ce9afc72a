import Folio.Failure
import Folio.Json.Error
import Folio.Json.Value
import Folio.Text.Symbol

/-!
# Reading JSON

The reader takes a value off the front of a text and hands on what is left.  It
accepts `NaN`, `Infinity` and `-Infinity` for numbers, and whole numbers of any
size up to the limit on digits.  A name given twice in an object keeps its
first place and its last value.

A whole number with too many digits is the one failure that is not an error in
the text.
-/

namespace Folio.Json

open Decimal

/-- What reading a piece of text yields: a result and what is left, or the
reason there is none. -/
abbrev Reading (Result : Type) := Except (Failure Fault) (Result × List Char)

def problemAt {Result : Type} (problem : Problem) (rest : List Char) : Reading Result :=
  .error (.refused ⟨problem, rest⟩)

def Reading.andThen {First Second : Type} (reading : Reading First)
    (next : First → List Char → Reading Second) : Reading Second :=
  match reading with
  | .error failure => .error failure
  | .ok (result, rest) => next result rest

/-- The characters that may stand between the parts of a value. -/
def isSpacing (c : Char) : Bool :=
  c = ' ' || c = '\t' || c = '\n' || c = '\r'

def skipSpacing (s : List Char) : List Char := s.dropWhile isSpacing

/-- The value of a hexadecimal digit of either case. -/
def hexValue? (c : Char) : Option Nat :=
  if '0' ≤ c ∧ c ≤ '9' then some (c.toNat - '0'.toNat)
  else if 'a' ≤ c ∧ c ≤ 'f' then some (c.toNat - 'a'.toNat + 10)
  else if 'A' ≤ c ∧ c ≤ 'F' then some (c.toNat - 'A'.toNat + 10)
  else none

def hexQuad? (a b c d : Char) : Option Nat := do
  return ((← hexValue? a) * 16 + (← hexValue? b)) * 256 + (← hexValue? c) * 16 + (← hexValue? d)

/-- The character that a backslash and a letter stand for. -/
def shortEscape? : Char → Option Char
  | '"' => some '"'
  | '\\' => some '\\'
  | '/' => some '/'
  | 'b' => some '\x08'
  | 'f' => some '\x0c'
  | 'n' => some '\n'
  | 'r' => some '\r'
  | 't' => some '\t'
  | _ => none

/-- Put a code point in front of those that were read after it. -/
def consCode (code : Nat) (reading : Reading (List Nat)) : Reading (List Nat) :=
  reading.andThen fun codes rest => .ok (code :: codes, rest)

/-- The code points of a string up to its closing quote.  An escape with four
digits may yield half of a surrogate pair.  `opening` begins at the opening
quote. -/
def readCodes (opening : List Char) : List Char → Reading (List Nat)
  | [] => problemAt .unterminatedString opening
  | '"' :: rest => .ok ([], rest)
  | '\\' :: [] => problemAt .unterminatedString opening
  | '\\' :: 'u' :: a :: b :: c :: d :: rest =>
      match hexQuad? a b c d, rest with
      | some code, _ :: _ => consCode code (readCodes opening rest)
      | _, _ => problemAt .badUnicodeEscape ('u' :: a :: b :: c :: d :: rest)
  | '\\' :: 'u' :: rest => problemAt .badUnicodeEscape ('u' :: rest)
  | '\\' :: letter :: rest =>
      match shortEscape? letter with
      | some c => consCode c.toNat (readCodes opening rest)
      | none => problemAt .badEscape ('\\' :: letter :: rest)
  | c :: rest =>
      if c.toNat < 0x20 then problemAt .controlCharacter (c :: rest)
      else consCode c.toNat (readCodes opening rest)

/-- Whether a code point is the first half of a surrogate pair. -/
def isHighSurrogate (code : Nat) : Bool := 0xD800 ≤ code && code ≤ 0xDBFF

/-- Whether a code point is the second half of a surrogate pair. -/
def isLowSurrogate (code : Nat) : Bool := 0xDC00 ≤ code && code ≤ 0xDFFF

def isSurrogate (code : Nat) : Bool := isHighSurrogate code || isLowSurrogate code

/-- The character with a code point.  For half a surrogate pair it is the one that stands
for it in the first picture of a text. -/
def charOf (code : Nat) : Char :=
  if isSurrogate code then Text.Picture.first.standIn (code - 0xD800) else Char.ofNat code

/-- The characters of code points, with the two halves of a surrogate pair
joined. -/
def charsOf : List Nat → List Char
  | [] => []
  | [code] => [charOf code]
  | high :: low :: rest =>
      if isHighSurrogate high && isLowSurrogate low then
        Char.ofNat (0x10000 + (high - 0xD800) * 0x400 + (low - 0xDC00)) :: charsOf rest
      else charOf high :: charsOf (low :: rest)

/-- A string whose opening quote has been taken off. -/
def readString (afterQuote : List Char) : Reading String :=
  (readCodes ('"' :: afterQuote) afterQuote).andThen fun codes rest =>
    .ok (String.ofList (charsOf codes), rest)

/-- Whether a character is a decimal digit of ASCII. -/
def isAsciiDigit (c : Char) : Bool := '0' ≤ c && c ≤ '9'

def spanAsciiDigits (s : List Char) : List Char × List Char :=
  (s.takeWhile isAsciiDigit, s.dropWhile isAsciiDigit)

def digitsValue (digits : List Char) : Nat :=
  digits.foldl (fun value digit => 10 * value + (digit.toNat - '0'.toNat)) 0

/-- The digits in front of the point: a zero alone, or digits that begin with
another one. -/
def readWhole : List Char → Option (List Char × List Char)
  | [] => none
  | '0' :: rest => some (['0'], rest)
  | c :: rest =>
      if isAsciiDigit c then
        let (digits, rest) := spanAsciiDigits rest
        some (c :: digits, rest)
      else none

/-- The digits after a point; without any the point does not belong to the
number. -/
def readFraction : List Char → Option (List Char) × List Char
  | '.' :: rest =>
      match spanAsciiDigits rest with
      | ([], _) => (none, '.' :: rest)
      | (digits, rest) => (some digits, rest)
  | s => (none, s)

/-- A sign in front of an exponent: whether it is a minus, and what is left. -/
def readSign : List Char → Bool × List Char
  | '-' :: rest => (true, rest)
  | '+' :: rest => (false, rest)
  | s => (false, s)

/-- An exponent; without digits the letter does not belong to the number. -/
def readExponent : List Char → Option Int × List Char
  | [] => (none, [])
  | mark :: rest =>
      if mark = 'e' ∨ mark = 'E' then
        let (negative, unsigned) := readSign rest
        match spanAsciiDigits unsigned with
        | ([], _) => (none, mark :: rest)
        | (digits, rest) =>
            let size : Int := digitsValue digits
            (some (if negative then -size else size), rest)
      else (none, mark :: rest)

/-- A number without its sign; `start` begins at the sign.  It is whole when it
has neither a fraction nor an exponent. -/
def readNumber (start : List Char) (negative : Bool) (s : List Char) : Reading Value :=
  match readWhole s with
  | none => problemAt .expectingValue start
  | some (whole, afterWhole) =>
      let (fraction, afterFraction) := readFraction afterWhole
      let (exponent, rest) := readExponent afterFraction
      match fraction, exponent with
      | none, none =>
          if whole.length > Text.digitLimit then
            .error (.numeral (.tooManyDigits whole.length))
          else
            let size : Int := digitsValue whole
            let signed : Int := if negative then -size else size
            .ok (.integer signed, rest)
      | _, _ =>
          let places := fraction.getD []
          .ok (.float (.ofDecimal negative (digitsValue (whole ++ places))
            (exponent.getD 0 - places.length)), rest)

def valueWords : List (List Char × Value) :=
  [("null".toList, .null), ("true".toList, .flag true), ("false".toList, .flag false),
    ("NaN".toList, .float .notANumber), ("Infinity".toList, .float (.infinite false)),
    ("-Infinity".toList, .float (.infinite true))]

/-- The word that a text begins with, and what is left. -/
def readWord? (s : List Char) : Option (Value × List Char) :=
  valueWords.findSome? fun (word, value) =>
    if word.isPrefixOf s then some (value, s.drop word.length) else none

/-- A value that is neither a string nor composed of others. -/
def readScalar (s : List Char) : Reading Value :=
  match readWord? s with
  | some reading => .ok reading
  | none =>
      match s with
      | '-' :: rest => readNumber s true rest
      | _ => readNumber s false s

def readName : List Char → Reading String
  | '"' :: rest =>
      (readString rest).andThen fun name rest =>
        match skipSpacing rest with
        | ':' :: rest => .ok (name, skipSpacing rest)
        | rest => problemAt .expectingColon rest
  | s => problemAt .expectingName s

mutual
/-- A value at the front of a text.  The first argument bounds the number of
calls that follow. -/
def readValue : Nat → List Char → Reading Value
  | 0, s => problemAt .expectingValue s
  | fuel + 1, s =>
      match s with
      | '"' :: rest =>
          (readString rest).andThen fun value rest => .ok (.text value, rest)
      | '[' :: rest =>
          match skipSpacing rest with
          | ']' :: rest => .ok (.array [], rest)
          | inside => (readItems fuel inside).andThen fun items rest => .ok (.array items, rest)
      | '\x7b' :: rest =>
          match skipSpacing rest with
          | '\x7d' :: rest => .ok (.object [], rest)
          | inside =>
              (readMembers fuel inside).andThen fun members rest =>
                .ok (.object (membersOf members), rest)
      | _ => readScalar s

/-- The items of an array, at least one, and its closing bracket. -/
def readItems : Nat → List Char → Reading (List Value)
  | 0, s => problemAt .expectingValue s
  | fuel + 1, s =>
      (readValue fuel s).andThen fun item rest =>
        match skipSpacing rest with
        | ']' :: rest => .ok ([item], rest)
        | ',' :: rest =>
            (readItems fuel (skipSpacing rest)).andThen fun items rest =>
              .ok (item :: items, rest)
        | rest => problemAt .expectingComma rest

/-- The members of an object, at least one, and its closing brace. -/
def readMembers : Nat → List Char → Reading (List (String × Value))
  | 0, s => problemAt .expectingName s
  | fuel + 1, s =>
      (readName s).andThen fun name rest =>
        (readValue fuel rest).andThen fun value rest =>
          match skipSpacing rest with
          | '\x7d' :: rest => .ok ([(name, value)], rest)
          | ',' :: rest =>
              (readMembers fuel (skipSpacing rest)).andThen fun members rest =>
                .ok ((name, value) :: members, rest)
          | rest => problemAt .expectingComma rest
end

/-- The value a whole text stands for.  A byte order mark is no spacing. -/
def readDocument (s : List Char) : Except (Failure Fault) Value :=
  match s with
  | '\uFEFF' :: _ => .error (.refused ⟨.byteOrderMark, s⟩)
  | _ => do
      let (value, rest) ← readValue (2 * s.length + 2) (skipSpacing s)
      match skipSpacing rest with
      | [] => return value
      | rest => .error (.refused ⟨.extraData, rest⟩)

def parse (text : String) : Except (Failure SyntaxError) Value :=
  (readDocument text.toList).mapError (·.map (Fault.locate text.toList))

end Folio.Json
