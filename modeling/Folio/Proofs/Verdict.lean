import Folio.Proofs.Pruning

/-!
# Which documents are rendered

Whether a document can be rendered depends on two facts about the lines before
each line: whether a blob waits for an image, and whether the current section
has a table.  A watch keeps these two facts and nothing else.  It refuses
exactly the documents that rendering refuses, at the same line and in the same
words; above all, a note or a cell that content goes to is never missing.

The lines are those of a document: numbers in them can be written out, and what is neither
a directive nor a text run has the flag of lines all the same.
-/

namespace Folio

open Render

namespace RenderError

end RenderError

/-- What must be known of earlier lines to tell whether a line is refused. -/
structure Watch where
  blobPending : Bool
  tableInSection : Bool
  deriving DecidableEq, Repr

namespace Watch

def start : Watch := ⟨false, false⟩

/-- A change of destination: it must be a known one, and a cell needs a table. -/
def redirect (watch : Watch) : Target → Except (Failure String) Watch
  | .known .body | .known .note => .ok watch
  | .known .cell =>
      if watch.tableInSection then .ok watch
      else .error (.refused "Cannot set destination to cell when no table is defined")
  | .known .head => .ok { watch with tableInSection := false }
  | target =>
      .error (.refused ("Unknown render destination " ++ RenderError.shownTarget target))

def obey (watch : Watch) (line : Directive) : Except (Failure String) Watch :=
  match line.kind with
  | .newSection => .ok { watch with tableInSection := false }
  | .blob => .ok { watch with blobPending := true }
  | .image =>
      if line.content.isVoid then
        if watch.blobPending then .ok { watch with blobPending := false }
        else .error (.refused "No image content available")
      else .ok watch
  | .table =>
      match Table.columnCount line.content with
      | .error failure => .error (failure.map RenderError.message)
      | .ok _ => .ok { watch with tableInSection := true }
  | .destination => watch.redirect line.target
  | .newParagraph | .hint | .link | .anchor => .ok watch

def step (watch : Watch) : Line → Except (Failure String) Watch
  | .directive line => watch.obey line
  | .run _ => .ok watch
  | .foreign shown => .error (.refused ("Unsupported line " ++ shown))

/-- Lines are watched up to the first that is refused. -/
def run (watch : Watch) : List Line → Except (Failure String) Watch
  | [] => .ok watch
  | line :: rest => do (← watch.step line).run rest

end Watch

namespace Draft

def watch (draft : Draft) : Watch := ⟨draft.blob.isSome, draft.table.isSome⟩

end Draft

end Folio
