import Folio.Text.Newline

/-!
# Texts with halves of surrogate pairs

A text from outside may hold half of a surrogate pair where a character is expected.  Such
a text is worked on in two pictures, in which private characters stand for the halves.
The characters that stand for a half differ between the pictures, and what is the same in
both comes from the text itself.
-/

namespace Folio.Text

inductive Symbol where
  | char (c : Char)
  /-- Half of a surrogate pair, by its place among all of them. -/
  | half (index : Fin 0x800)
  deriving DecidableEq, Repr

/-- The two pictures of a text. -/
inductive Picture where
  | first
  | second
  deriving DecidableEq, Repr

/-- Where the private characters begin that stand for halves in a picture. -/
def Picture.base : Picture → Nat
  | first => 0xE800
  | second => 0xE000

/-- The character that stands for half of a surrogate pair. -/
def Picture.standIn (picture : Picture) (index : Nat) : Char := Char.ofNat (picture.base + index)

namespace Symbol

def code : Symbol → Nat
  | char c => c.toNat
  | half index => 0xD800 + index

def isHalf : Symbol → Bool
  | char _ => false
  | half _ => true

def depict (picture : Picture) : Symbol → Char
  | char c => c
  | half index => picture.standIn index

/-- The half that a character of the first picture and one of the second stand for. -/
def halfOf? (inFirst inSecond : Char) : Option (Fin 0x800) :=
  if Picture.first.base ≤ inFirst.toNat ∧ inFirst.toNat = inSecond.toNat + 0x800 then
    some (Fin.ofNat 0x800 (inFirst.toNat - Picture.first.base))
  else none

/-- The symbols of a text without halves. -/
def ofText (text : String) : List Symbol := text.toList.map char

/-- Write every line end of a text as one line feed. -/
def unifyNewlines : List Symbol → List Symbol
  | [] => []
  | char '\r' :: char '\n' :: rest => char '\n' :: unifyNewlines rest
  | char '\r' :: rest => char '\n' :: unifyNewlines rest
  | symbol :: rest => symbol :: unifyNewlines rest

@[simp]
theorem depict_char (picture : Picture) (c : Char) : (char c).depict picture = c := rfl

end Symbol

end Folio.Text
