import Folio.Text.Symbol

/-!
# Bytes that cannot be decoded and texts that cannot be encoded

A decoder stops at the first bytes that its encoding does not allow.  While
bytes are decoded, the place of a fault is what is left of them; the position
follows from it.  A text cannot be encoded when it holds half of a surrogate pair.
-/

namespace Folio.Encoding

inductive Reason where
  | invalidStart
  | invalidContinuation
  | unexpectedEnd
  | notAscii
  | unmapped
  | truncated
  | loneSurrogate
  | brokenSurrogatePair
  deriving DecidableEq, Repr

def Reason.message : Reason → String
  | invalidStart => "invalid start byte"
  | invalidContinuation => "invalid continuation byte"
  | unexpectedEnd => "unexpected end of data"
  | notAscii => "ordinal not in range(128)"
  | unmapped => "character maps to <undefined>"
  | truncated => "truncated data"
  | loneSurrogate => "illegal encoding"
  | brokenSurrogatePair => "illegal UTF-16 surrogate"

/-- Bytes at the beginning of what is left that cannot be decoded. -/
structure BadBytes where
  rest : List UInt8
  count : Nat
  reason : Reason
  deriving DecidableEq, Repr

/-- A fault with its position in the bytes that were to be decoded. -/
structure DecodeFault where
  /-- The name of the encoding that does not allow the bytes. -/
  encoding : String
  position : Nat
  bytes : List UInt8
  reason : Reason
  deriving DecidableEq, Repr

/-- Where bad bytes lie among those that were to be decoded. -/
def BadBytes.locate (encoding : String) (source : List UInt8) (bad : BadBytes) : DecodeFault :=
  { encoding := encoding
    position := source.length - bad.rest.length
    bytes := bad.rest.take bad.count
    reason := bad.reason }

/-- The two hexadecimal digits of a byte in lower case. -/
def hexByte (byte : UInt8) : String :=
  String.ofList [Nat.digitChar (byte.toNat / 16), Nat.digitChar (byte.toNat % 16)]

/-- The wording of a fault; a single byte is shown. -/
def DecodeFault.message (fault : DecodeFault) : String :=
  let place :=
    match fault.bytes with
    | [byte] => "byte 0x" ++ hexByte byte ++ " in position " ++ toString fault.position
    | bytes =>
        "bytes in position " ++ toString fault.position ++ "-" ++
          toString (fault.position + bytes.length - 1)
  "'" ++ fault.encoding ++ "' codec can't decode " ++ place ++ ": " ++ fault.reason.message

/-- The first halves of surrogate pairs in a text, up to the next character. -/
structure EncodeFault where
  position : Nat
  codes : List Nat
  deriving DecidableEq, Repr

/-- The wording of a fault; a single half is shown. -/
def EncodeFault.message (fault : EncodeFault) : String :=
  let place :=
    match fault.codes with
    | [code] =>
        "character '\\u" ++ String.ofList (Nat.toDigits 16 code) ++ "' in position " ++
          toString fault.position
    | codes =>
        "characters in position " ++ toString fault.position ++ "-" ++
          toString (fault.position + codes.length - 1)
  "'utf-8' codec can't encode " ++ place ++ ": surrogates not allowed"

/-- The text that symbols make up, unless halves of surrogate pairs are among them. -/
def encodable (symbols : List Text.Symbol) : Except EncodeFault String :=
  match symbols.dropWhile (!·.isHalf) with
  | [] => .ok (String.ofList (symbols.map (·.depict .first)))
  | behind =>
      .error ⟨symbols.length - behind.length, (behind.takeWhile (·.isHalf)).map (·.code)⟩

end Folio.Encoding
