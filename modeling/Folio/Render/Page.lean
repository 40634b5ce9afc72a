import Folio.Page.Head
import Folio.Page.Output
import Folio.Render.Pass

/-!
# The page of a document

The page is an element with a head, which depends on the metadata and the
options, and a body, which is rendered from the lines.  Sections and paragraphs
that stayed empty are pruned at the end.
-/

namespace Folio.Render

open Markup

/-- The heading that shows the title, when it is asked for and there is a title
to show. -/
def titleHeading (options : Options) (document : Document) : List Node :=
  if options.titleHeading && document.showsMetadata && !document.title.isEmpty then
    [{ Element.new () "h1" [] with text := some document.title }]
  else []

def bodyWith (classes : List String) : Node :=
  classes.foldl Element.addClass (Element.new () "body" [])

def emptyBody (options : Options) (document : Document) : Node :=
  { bodyWith options.bodyClasses with children := titleHeading options document }

/-- The state in front of the first line of a document. -/
def initialPass (options : Options) (document : Document) : Pass :=
  .start (emptyBody options document)

def assemble (head body : Node) : Node :=
  { Element.new () "html" [] with children := [head, body] }

def draftTree (options : Options) (document : Document) :
    Except (Failure RenderError) Node := do
  let pass ← (initialPass options document).run document.lines
  return assemble (Page.head options.stylesheets document) pass.body

def renderTree (options : Options) (document : Document) :
    Except (Failure RenderError) Node := do
  return (← draftTree options document).prune.1

def render (options : Options) (document : Document) :
    Except (Failure RenderError) String := do
  return Page.serialize options (← renderTree options document)

end Folio.Render
