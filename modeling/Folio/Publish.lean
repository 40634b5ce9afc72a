import Folio.Convert
import Folio.Encoding.Fault
import Folio.Json.Picture

/-!
# Publishing a text

A text from outside may hold halves of surrogate pairs, and then its page may hold them
too.  Both pictures of the text are converted, and what differs between their pages stands
for halves.  A page with such a half is made but cannot be encoded.  Whether there is a
page at all, and why there is none, is told by the first picture: in the words of a refusal
a half is shown as the character that stands for it, and the name of a piece of metadata
with a half is the same as one with that character.
-/

namespace Folio

open Text

/-- Whether two texts begin with different characters, the first of them in ASCII. -/
def partsInAscii : List Char → List Char → Bool
  | c :: _, d :: _ => c ≠ d && c.toNat < 0x80
  | _, _ => false

/-- The symbols that the pages of both pictures are pictures of.  A half that is shown
quoted is written in digits; the digits of the two characters that stand for it differ
behind an `e`, and those of the half have a `d` there. -/
def overlay : List Char → List Char → List Symbol
  | [], _ => []
  | rest, [] => rest.map .char
  | c :: rest, d :: others =>
      let symbol : Symbol :=
        match Symbol.halfOf? c d with
        | some index => .half index
        | none => if c = 'e' && partsInAscii rest others then .char 'd' else .char c
      symbol :: overlay rest others

/-- The text of a page, given the page of the first picture. -/
def reveal (options : Options) (source : List Symbol) (page : String) :
    Except Encoding.EncodeFault String :=
  let other := (convert options (Json.secondPicture source)).toOption.getD page
  if other = page then .ok page else Encoding.encodable (overlay page.toList other.toList)

/-- Convert a text, and see whether the page can be encoded. -/
def publish (options : Options) (source : List Symbol) :
    Except (Failure ConversionError) (Except Encoding.EncodeFault String) :=
  (convert options (Json.firstPicture source)).map (reveal options source)

end Folio
