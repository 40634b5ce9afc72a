/-!
# Comparing with ASCII words

Keywords, tag names and option values are ASCII words, and a text is compared
with them after its letters have been lowered or raised.  Outside ASCII only
the Kelvin sign has an ASCII letter for its lower case.  The dotless i and the
long s have one for their upper case, and the sharp s and the Latin ligatures
have several.  So these characters and the letters of ASCII decide every such
comparison.
-/

namespace Folio.Text

/-- The lower case of ASCII letters and of the Kelvin sign; any other character
stands for itself. -/
def lowerChar (c : Char) : Char :=
  if c = '\u212A' then 'k' else c.toLower

/-- A text with its letters lowered, for comparison with an ASCII word. -/
def lower (s : String) : String :=
  String.ofList (s.toList.map lowerChar)

/-- The characters outside ASCII whose upper case is made of ASCII letters. -/
def raisedToAscii : List (Char × String) :=
  [('\u00DF', "SS"), ('\u0131', "I"), ('\u017F', "S"), ('\uFB00', "FF"), ('\uFB01', "FI"),
    ('\uFB02', "FL"), ('\uFB03', "FFI"), ('\uFB04', "FFL"), ('\uFB05', "ST"), ('\uFB06', "ST")]

/-- The upper case of a character, if it is made of ASCII letters; any other
character stands for itself. -/
def upperChar (c : Char) : List Char :=
  match raisedToAscii.lookup c with
  | some letters => letters.toList
  | none => [c.toUpper]

/-- A text with its letters raised, for comparison with an ASCII word. -/
def upper (s : String) : String :=
  String.ofList (s.toList.flatMap upperChar)

end Folio.Text
