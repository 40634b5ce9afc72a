import Folio.Text.Printable

/-!
# Quoted text

A text is shown in a message between quotes: single ones, unless it holds a
single quote and no double quote.  A backslash and the quote in use are
preceded by a backslash, line feed, carriage return and tab get their letter,
and any other character that is not printable is written by its code point in
hexadecimal digits.
-/

namespace Folio.Text

/-- Hexadecimal digits of a number in lower case, padded with zeros to a
width. -/
def hexPadded (width : Nat) (n : Nat) : List Char :=
  let digits := Nat.toDigits 16 n
  List.replicate (width - digits.length) '0' ++ digits

/-- A character that is not printable, by its code point: two, four or eight
digits after `x`, `u` or `U`. -/
def escapeCodePoint (c : Char) : List Char :=
  if c.toNat < 0x100 then '\\' :: 'x' :: hexPadded 2 c.toNat
  else if c.toNat < 0x10000 then '\\' :: 'u' :: hexPadded 4 c.toNat
  else '\\' :: 'U' :: hexPadded 8 c.toNat

def escapeChar (quote c : Char) : List Char :=
  if c = quote ∨ c = '\\' then ['\\', c]
  else if c = '\n' then ['\\', 'n']
  else if c = '\r' then ['\\', 'r']
  else if c = '\t' then ['\\', 't']
  else if isPrintable c then [c]
  else escapeCodePoint c

def quoteFor (s : List Char) : Char :=
  if s.contains '\'' && !s.contains '"' then '"' else '\''

def quoted (s : String) : String :=
  let quote := quoteFor s.toList
  String.ofList (quote :: s.toList.flatMap (escapeChar quote) ++ [quote])

end Folio.Text
