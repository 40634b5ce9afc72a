import Folio.Encoding.Fault

/-!
# UTF-8

A first byte says how many continuation bytes it needs and in what range the
first of them must lie, which rules out overlong forms, surrogates and values
that are too large.  A sequence is refused at the first byte that cannot
continue it, and the bytes before that one are to blame.
-/

namespace Folio.Encoding.Utf8

structure Pending where
  /-- What was left when the sequence began. -/
  start : List UInt8
  taken : Nat
  /-- How many continuation bytes are missing after the next one. -/
  owed : Nat
  /-- The least value the next byte may have. -/
  low : Nat
  /-- The greatest value the next byte may have. -/
  high : Nat
  bits : Nat

/-- The sequence that a first byte beyond ASCII begins. -/
def begin? (byte : Nat) (start : List UInt8) : Option Pending :=
  if 0xC2 ≤ byte ∧ byte ≤ 0xDF then some ⟨start, 1, 0, 0x80, 0xBF, byte - 0xC0⟩
  else if byte = 0xE0 then some ⟨start, 1, 1, 0xA0, 0xBF, 0⟩
  else if byte = 0xED then some ⟨start, 1, 1, 0x80, 0x9F, 0xD⟩
  else if 0xE1 ≤ byte ∧ byte ≤ 0xEF then some ⟨start, 1, 1, 0x80, 0xBF, byte - 0xE0⟩
  else if byte = 0xF0 then some ⟨start, 1, 2, 0x90, 0xBF, 0⟩
  else if 0xF1 ≤ byte ∧ byte ≤ 0xF3 then some ⟨start, 1, 2, 0x80, 0xBF, byte - 0xF0⟩
  else if byte = 0xF4 then some ⟨start, 1, 2, 0x80, 0x8F, 4⟩
  else none

/-- Decode bytes, the first of which may continue a sequence. -/
def decodeFrom : Option Pending → List UInt8 → Except BadBytes (List Char)
  | none, [] => .ok []
  | some pending, [] =>
      .error ⟨pending.start, pending.taken, .unexpectedEnd⟩
  | none, byte :: rest =>
      if byte.toNat < 0x80 then (decodeFrom none rest).map (Char.ofNat byte.toNat :: ·)
      else
        match begin? byte.toNat (byte :: rest) with
        | none => .error ⟨byte :: rest, 1, .invalidStart⟩
        | some pending => decodeFrom (some pending) rest
  | some pending, byte :: rest =>
      if pending.low ≤ byte.toNat ∧ byte.toNat ≤ pending.high then
        let bits := pending.bits * 0x40 + (byte.toNat - 0x80)
        match pending.owed with
        | 0 => (decodeFrom none rest).map (Char.ofNat bits :: ·)
        | owed + 1 =>
            decodeFrom (some ⟨pending.start, pending.taken + 1, owed, 0x80, 0xBF, bits⟩) rest
      else .error ⟨pending.start, pending.taken, .invalidContinuation⟩

def decode (bytes : List UInt8) : Except BadBytes (List Char) := decodeFrom none bytes

def encode (text : List Char) : List UInt8 := text.flatMap String.utf8EncodeChar

def mark : List UInt8 := [0xEF, 0xBB, 0xBF]

end Folio.Encoding.Utf8
