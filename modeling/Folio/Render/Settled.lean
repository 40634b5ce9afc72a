import Folio.Render.Page

/-!
# A pass after pruning

Content can still be sent to a destination when a pass is over and its tree has
been pruned.  The current section may have been pruned away by then; it keeps
working as an element of its own, and the body does not show what is added to
it.
-/

namespace Folio.Render

open Markup

/-- A body that has been pruned, and the section that was current. -/
structure Settled where
  /-- The body without the current section. -/
  finished : Node
  current : Node
  /-- Whether the current section is still the last child of the body. -/
  attached : Bool

namespace Settled

def ofPass (pass : Pass) : Settled :=
  let current := pass.current.prune.1
  ⟨pass.finished.prune.1, current, current.hasContent⟩

def body (settled : Settled) : Node :=
  if settled.attached then settled.finished.appendChild settled.current
  else settled.finished

/-- Find the element that content for a target goes to, and make it if
necessary. -/
def resolve (settled : Settled) (target : Target) :
    Except RenderError (Settled × Option Node) := do
  let (current, place) ← resolveTarget settled.current target
  return ({ settled with current := current }, current.at? place)

end Settled

/-- Where an element of the current section, given by its place there, stands in
document order, the body being number zero. -/
def Pass.orderOf (pass : Pass) (place : Place) : Option Nat :=
  (pass.body.walk.map Prod.fst).idxOf? (pass.finished.children.length :: place)

end Folio.Render
