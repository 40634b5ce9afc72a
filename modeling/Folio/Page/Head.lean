import Folio.Document.Basic
import Folio.Markup.Element
import Folio.Page.Style

/-!
# The head of a page

The head names the character set and holds the style sheet and links to further
ones.  A document that shows its metadata adds its title and properties that
describe it: the title and the description as one property each, creators,
subjects and dates as one property a value.
-/

namespace Folio.Page

open Markup

def property (name value : String) : Node :=
  .new () "meta" [("property", "og:" ++ name), ("content", value)]

/-- The character set, the style sheet and a link to each further style
sheet. -/
def styleNodes (stylesheets : List String) : List Node :=
  [.new () "meta" [("http-equiv", "Content-Type"), ("content", "text/html; charset=utf-8")],
    { Element.new () "style" [] with text := some Style.sheet }] ++
  stylesheets.map fun address => .new () "link" [("rel", "stylesheet"), ("href", address)]

/-- One property that joins all values of a term; none when it has no
values. -/
def mergedProperty (document : Document) (term name : String) : List Node :=
  match document.term term with
  | [] => []
  | values => [property name (", ".intercalate values)]

def separateProperties (document : Document) (term name : String) : List Node :=
  (document.term term).map (property name)

/-- What the metadata adds to the head: nothing, unless the document shows
it. -/
def metadataNodes (document : Document) : List Node :=
  if document.showsMetadata then
    (if document.title.isEmpty then []
      else [{ Element.new () "title" [] with text := some document.title }]) ++
    [property "type" "article"] ++
    mergedProperty document "title" "title" ++
    mergedProperty document "description" "description" ++
    separateProperties document "creator" "article:author" ++
    separateProperties document "subject" "article:tag" ++
    separateProperties document "date" "article:published_time"
  else []

def head (stylesheets : List String) (document : Document) : Node :=
  { Element.new () "head" [] with
    children := styleNodes stylesheets ++ metadataNodes document }

end Folio.Page
