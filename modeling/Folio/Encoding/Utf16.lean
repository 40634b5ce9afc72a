import Folio.Encoding.Fault

/-!
# UTF-16

A character is one unit of two bytes, or a pair of surrogate units.  The order
of the two bytes is a matter of the encoding, or of a mark in front of the
text.
-/

namespace Folio.Encoding.Utf16

inductive ByteOrder where
  | little
  | big
  deriving DecidableEq, Repr

def ByteOrder.unit : ByteOrder → UInt8 → UInt8 → Nat
  | little, first, second => second.toNat * 0x100 + first.toNat
  | big, first, second => first.toNat * 0x100 + second.toNat

def isHigh (unit : Nat) : Bool := 0xD800 ≤ unit && unit ≤ 0xDBFF

def isLow (unit : Nat) : Bool := 0xDC00 ≤ unit && unit ≤ 0xDFFF

/-- Decode bytes.  The first argument is the first unit of a surrogate pair
that is not complete yet, with what was left when it began. -/
def decodeFrom (order : ByteOrder) :
    Option (Nat × List UInt8) → List UInt8 → Except BadBytes (List Char)
  | none, [] => .ok []
  | none, [byte] => .error ⟨[byte], 1, .truncated⟩
  | some (_, start), [] | some (_, start), [_] =>
      .error ⟨start, start.length, .unexpectedEnd⟩
  | none, first :: second :: rest =>
      let unit := order.unit first second
      if isHigh unit then decodeFrom order (some (unit, first :: second :: rest)) rest
      else if isLow unit then .error ⟨first :: second :: rest, 2, .loneSurrogate⟩
      else (decodeFrom order none rest).map (Char.ofNat unit :: ·)
  | some (high, start), first :: second :: rest =>
      let unit := order.unit first second
      if isLow unit then
        (decodeFrom order none rest).map
          (Char.ofNat (0x10000 + (high - 0xD800) * 0x400 + (unit - 0xDC00)) :: ·)
      else .error ⟨start, 2, .brokenSurrogatePair⟩

def decode (order : ByteOrder) (bytes : List UInt8) : Except BadBytes (List Char) :=
  decodeFrom order none bytes

/-- The byte order that a mark in front of a text shows, and the bytes after
the mark. -/
def marked? : List UInt8 → Option (ByteOrder × List UInt8)
  | 0xFF :: 0xFE :: rest => some (.little, rest)
  | 0xFE :: 0xFF :: rest => some (.big, rest)
  | _ => none

end Folio.Encoding.Utf16
