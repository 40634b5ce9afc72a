import Folio.Encoding.Utf8

/-!
# The name of a download

A response is offered for download under a name.  A name in ASCII stands
between quotes as it is.  Any other name is sent as the UTF-8 bytes of its
characters, where every byte but those of a few safe characters becomes a
percent sign with two hexadecimal digits.
-/

namespace Folio.Service

/-- The bytes that stand for themselves: ASCII letters and digits and the marks
`_`, `.`, `-`, `~` and `/`. -/
def isSafeByte (byte : UInt8) : Bool :=
  let c := Char.ofNat byte.toNat
  byte.toNat < 0x80 && (c.isAlphanum || ['_', '.', '-', '~', '/'].contains c)

def hexDigit (value : Nat) : Char := (Nat.digitChar value).toUpper

def percentByte (byte : UInt8) : List Char :=
  if isSafeByte byte then [Char.ofNat byte.toNat]
  else ['%', hexDigit (byte.toNat / 16), hexDigit (byte.toNat % 16)]

/-- A text with every byte that is not safe escaped. -/
def percentEncode (text : String) : String :=
  String.ofList ((Encoding.Utf8.encode text.toList).flatMap percentByte)

def isAsciiText (text : String) : Bool :=
  text.toList.all fun c => c.toNat < 0x80

/-- The header that offers a response for download under a name. -/
def disposition (filename : String) : String :=
  if isAsciiText filename then "attachment; filename=\"" ++ filename ++ "\""
  else "attachment; filename*=UTF-8''" ++ percentEncode filename

end Folio.Service
