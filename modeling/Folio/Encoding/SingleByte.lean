import Folio.Encoding.Fault

/-!
# Encodings of one byte a character

Such an encoding is a function from bytes to characters, which need not be
defined everywhere.
-/

namespace Folio.Encoding.SingleByte

/-- Decode bytes one by one; a byte without a character is to blame for the
given reason. -/
def decode (charOf? : UInt8 → Option Char) (reason : Reason) :
    List UInt8 → Except BadBytes (List Char)
  | [] => .ok []
  | byte :: rest =>
      match charOf? byte with
      | none => .error ⟨byte :: rest, 1, reason⟩
      | some c => (decode charOf? reason rest).map (c :: ·)

def ascii? (byte : UInt8) : Option Char :=
  if byte.toNat < 0x80 then some (Char.ofNat byte.toNat) else none

/-- Latin-1: every byte is the code point of its character. -/
def latin1? (byte : UInt8) : Option Char := some (Char.ofNat byte.toNat)

/-- The code points of the bytes 0x80 to 0x9F in Windows code page 1252. -/
def windows1252High : List (Option Nat) :=
  [
    some 0x20AC, none, some 0x201A, some 0x0192, some 0x201E, some 0x2026, some 0x2020,
    some 0x2021, some 0x02C6, some 0x2030, some 0x0160, some 0x2039, some 0x0152, none,
    some 0x017D, none, none, some 0x2018, some 0x2019, some 0x201C, some 0x201D,
    some 0x2022, some 0x2013, some 0x2014, some 0x02DC, some 0x2122, some 0x0161,
    some 0x203A, some 0x0153, none, some 0x017E, some 0x0178]

/-- Windows code page 1252: Latin-1 with other characters in place of most
control characters of its second half. -/
def windows1252? (byte : UInt8) : Option Char :=
  if 0x80 ≤ byte.toNat ∧ byte.toNat < 0xA0 then
    ((windows1252High[byte.toNat - 0x80]?).join).map Char.ofNat
  else latin1? byte

end Folio.Encoding.SingleByte
