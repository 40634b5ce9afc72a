import Folio.Document.Reader
import Folio.Render.Page

/-!
# Converting a text to a page

A conversion reads a document and renders it.  A document that is refused is
refused either while it is read or while it is rendered.
-/

namespace Folio

inductive ConversionError where
  | parsing (error : ParsingError)
  | rendering (error : RenderError)

def ConversionError.message : ConversionError → String
  | parsing error => error.message
  | rendering error => error.message

def convert (options : Options) (text : String) :
    Except (Failure ConversionError) String := do
  let document ← (Document.parse text).mapError (·.map .parsing)
  (Render.render options document).mapError (·.map .rendering)

end Folio
