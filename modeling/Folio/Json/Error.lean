/-!
# Errors in JSON text

An error names a problem and where it lies.  While a text is read, the place of
a problem is the part of the text that begins there; the position in
characters, the line and the column follow from it, and only a line feed ends a
line.
-/

namespace Folio.Json

inductive Problem where
  | byteOrderMark
  | expectingValue
  | expectingName
  | expectingColon
  | expectingComma
  | extraData
  | unterminatedString
  | controlCharacter
  | badEscape
  | badUnicodeEscape
  deriving DecidableEq, Repr

def Problem.message : Problem → String
  | byteOrderMark => "Unexpected UTF-8 BOM (decode using utf-8-sig)"
  | expectingValue => "Expecting value"
  | expectingName => "Expecting property name enclosed in double quotes"
  | expectingColon => "Expecting ':' delimiter"
  | expectingComma => "Expecting ',' delimiter"
  | extraData => "Extra data"
  | unterminatedString => "Unterminated string starting at"
  | controlCharacter => "Invalid control character at"
  | badEscape => "Invalid \\escape"
  | badUnicodeEscape => "Invalid \\uXXXX escape"

/-- A problem at the beginning of what is left of a text. -/
structure Fault where
  problem : Problem
  rest : List Char
  deriving DecidableEq, Repr

structure SyntaxError where
  problem : Problem
  position : Nat
  line : Nat
  /-- The place in the line, counted from one. -/
  column : Nat
  deriving DecidableEq, Repr

def Fault.locate (text : List Char) (fault : Fault) : SyntaxError :=
  let position := text.length - fault.rest.length
  let before := text.take position
  { problem := fault.problem
    position := position
    line := before.count '\n' + 1
    column := (before.reverse.takeWhile (· != '\n')).length + 1 }

def SyntaxError.message (error : SyntaxError) : String :=
  s!"{error.problem.message}: line {error.line} column {error.column} (char {error.position})"

end Folio.Json
