import Folio.Markup.Element
import Folio.Page.Style
import Folio.Text.Newline

/-!
# Text runs as inline markup

A run is wrapped in one element for each of its styles, always in the same
order from the outside in.  Line ends in its text become line breaks; the
pieces between them become text nodes, the empty ones too.
-/

namespace Folio.Render

open Markup

/-- The class of each line drawn through or under the text and of a fixed-width
face. -/
def spanClasses (style : RunStyle) : List String :=
  (if style.underline then [Style.underlineClass] else []) ++
  (if style.strikeout then [Style.strikeoutClass] else []) ++
  (if style.mono then [Style.monospaceClass] else [])

/-- The element that carries the classes of a run, when it has any. -/
def spanOf (style : RunStyle) : List Node :=
  match spanClasses style with
  | [] => []
  | classes => [classes.foldl Element.addClass (Element.new () "span" [])]

/-- The empty elements that wrap a run, from the outside in. -/
def wrappers (style : RunStyle) : List Node :=
  (if style.italic then [.new () "em" []] else []) ++
  (if style.bold then [.new () "strong" []] else []) ++
  spanOf style ++
  (if style.supertext then [.new () "sup" []] else []) ++
  (if style.subtext then [.new () "sub" []] else [])

def lineBreak (piece : String) : Node := { Element.new () "br" [] with tail := some piece }

/-- Append pieces of text with line breaks between them. -/
def appendPieces (target : Node) : List String → Node
  | [] => target
  | first :: rest =>
      let begun := target.appendText first
      { begun with children := begun.children ++ rest.map lineBreak }

def appendWrapped (pieces : List String) : List Node → Node → Node
  | [], target => appendPieces target pieces
  | wrapper :: inner, target => target.appendChild (appendWrapped pieces inner wrapper)

def appendRun (run : TextRun) (target : Node) : Node :=
  appendWrapped (Text.linesOf run.text) (wrappers run.style) target

end Folio.Render
