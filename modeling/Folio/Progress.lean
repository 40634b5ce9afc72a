import Folio.Convert
import Folio.Log

/-!
# Progress of a conversion

A conversion can be followed while it runs: each stage reports what it has
done.  A stage that fails reports nothing, and what was reported before it
stays.  Following a conversion does not change its result.
-/

namespace Folio

open Markup Render

inductive Progress where
  | parsed (lines terms : Nat)
  | rendering (lines : Nat)
  | openedSection (alignment : Alignment)
  | openedNote (number : Nat)
  | openedTable (columns : Nat)
  | rendered (notes pruned : Nat)
  | wrote (path : String) (characters : Nat)
  | failed
  deriving DecidableEq, Repr

namespace Progress

def message : Progress → String
  | parsed lines terms =>
      "Parsed " ++ toString lines ++ " lines, " ++ toString terms ++ " metadata terms"
  | rendering lines => "Rendering " ++ toString lines ++ " lines"
  | openedSection alignment => "Opened section " ++ alignment.name
  | openedNote number => "Opened note " ++ toString number
  | openedTable columns => "Opened table with " ++ toString columns ++ " columns"
  | rendered notes pruned =>
      "Rendered " ++ toString notes ++ " notes, removed " ++ toString pruned ++ " empty nodes"
  | wrote path characters =>
      "Wrote " ++ path ++ " (" ++ toString characters ++ " characters)"
  | failed => "Conversion failed"

def record (report : Progress) : Log.Record := ⟨Log.debug, report.message⟩

/-- What a line reports that was rendered in a state. -/
def ofLine (before : Pass) : Line → Option Progress
  | .directive line =>
      match line.kind, line.target with
      | .newSection, _ => some (openedSection line.alignment)
      | .table, _ => (Table.columnCount line.content).toOption.map openedTable
      | .destination, .known .note => some (openedNote before.nextNote)
      | _, _ => none
  | .run _ | .foreign _ => none

/-- What lines report, given the state in front of them and the states after
those that were rendered. -/
def ofLines (before : Pass) : List Line → List Pass → List Progress
  | line :: lines, after :: states => (ofLine before line).toList ++ ofLines after lines states
  | _, _ => []

end Progress

def Render.renderReporting (options : Options) (document : Document) :
    List Progress × Except (Failure RenderError) String :=
  let start := initialPass options document
  let (states, outcome) := start.trace document.lines
  let reports :=
    .rendering document.lines.length :: Progress.ofLines start document.lines states
  match outcome with
  | .error failure => (reports, .error failure)
  | .ok pass =>
      let (page, pruned) := (assemble (Page.head options.stylesheets document) pass.body).prune
      (reports ++ [.rendered (pass.nextNote - 1) pruned.length],
        .ok (Page.serialize options page))

def readReporting (text : String) :
    List Progress × Except (Failure ConversionError) Document :=
  match Document.parse text with
  | .error failure => ([], .error (failure.map .parsing))
  | .ok document =>
      ([.parsed document.lines.length document.metadata.length], .ok document)

def convertReporting (options : Options) (text : String) :
    List Progress × Except (Failure ConversionError) String :=
  match readReporting text with
  | (reports, .error failure) => (reports, .error failure)
  | (reports, .ok document) =>
      let (further, rendered) := renderReporting options document
      (reports ++ further, rendered.mapError (·.map .rendering))

theorem Render.snd_renderReporting (options : Options) (document : Document) :
    (renderReporting options document).2 = render options document := by
  have traced := (initialPass options document).trace_snd document.lines
  simp only [renderReporting, render, renderTree, draftTree, ← traced]
  cases ((initialPass options document).trace document.lines).2 with
  | error failure => rfl
  | ok pass => rfl

/-- Reporting does not change what a text is converted to. -/
theorem snd_convertReporting (options : Options) (text : String) :
    (convertReporting options text).2 = convert options text := by
  simp only [convertReporting, readReporting, convert]
  cases Document.parse text with
  | error failure => rfl
  | ok document =>
      simp only [← Render.snd_renderReporting]
      rfl

end Folio
