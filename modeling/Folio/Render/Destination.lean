import Folio.Markup.Place
import Folio.Render.Error

/-!
# Finding the destination of content

The element that new content is attached to is looked up in the current section
each time, because the section grows between lines.  Running text and headings
go to the last child of the section when it is of the right kind and else to a
new one; notes and cells must be open already.
-/

namespace Folio.Render

open Markup

/-- The last child of a section, when it has the wanted tag, or else a new one
at its end. -/
def lastOrNew (tag : String) (current : Node) : Node × Place :=
  match current.lastChild? fun _ => true with
  | some (index, child) =>
      if child.tag = tag then (current, [index])
      else current.appendAt [] (.new () tag [])
  | none => current.appendAt [] (.new () tag [])

/-- The last paragraph of the last note of a section. -/
def notePlace? (current : Node) : Option Place := do
  let (place, note) ← current.lastDescendant? (·.isTagged ["aside"])
  let (inner, _) ← note.lastDescendant? (·.isTagged ["p"])
  return place ++ inner

/-- The last note or paragraph in the last cell of a section, or that cell
itself. -/
def cellPlace? (current : Node) : Option Place := do
  let (place, cell) ← current.lastDescendant? (·.isTagged ["th", "td"])
  return place ++ ((cell.lastDescendant? (·.isTagged ["aside", "p"])).map Prod.fst).getD []

/-- The place in the current section where content for a destination goes, and
the section with that place made. -/
def resolve (current : Node) : Destination → Except RenderError (Node × Place)
  | .body => .ok (lastOrNew "p" current)
  | .head => .ok (lastOrNew "h2" current)
  | .note =>
      match notePlace? current with
      | none => .error .noOpenNote
      | some place => .ok (current, place)
  | .cell =>
      match cellPlace? current with
      | none => .error .noOpenCell
      | some place => .ok (current, place)

/-- Resolution of a target, which need not be a destination. -/
def resolveTarget (current : Node) : Target → Except RenderError (Node × Place)
  | .known destination => resolve current destination
  | target => .error (.unknownDestination target)

end Folio.Render
