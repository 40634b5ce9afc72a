import Folio.Document.Line

/-!
# Style of a page

Every page carries the same style sheet.  The class names in it are those that
sections, paragraphs and text runs are given.
-/

namespace Folio.Style

def sheet : String :=
  "\n" ++
  "    .underline \x7b text-decoration: underline; \x7d\n" ++
  "    .strikeout \x7b text-decoration: line-through; \x7d\n" ++
  "    .monospace \x7b font-family: monospace; \x7d\n" ++
  "    .align-left \x7b text-align: left; \x7d\n" ++
  "    .align-center \x7b text-align: center; \x7d\n" ++
  "    .align-right \x7b text-align: right; \x7d\n" ++
  "    a.to-note \x7b vertical-align: super; font-size: 0.5em; \x7d\n"

def underlineClass : String := "underline"

def strikeoutClass : String := "strikeout"

def monospaceClass : String := "monospace"

/-- The class of an alignment.  Text that is unaligned or justified has
none. -/
def alignmentClass? : Alignment → Option String
  | .left => some "align-left"
  | .center => some "align-center"
  | .right => some "align-right"
  | .unset | .justify => none

end Folio.Style
