import Folio.Document.Line

/-!
# Why a document cannot be rendered

Rendering stops at the first line that asks for something that is not there.
-/

namespace Folio

inductive RenderError where
  /-- The line is neither a directive nor a text run. -/
  | unsupportedLine (shown : String)
  /-- Content goes to a note, and the current section has none. -/
  | noOpenNote
  /-- Content goes to a cell, and the current section has none. -/
  | noOpenCell
  /-- A directive names no destination, or something that is none. -/
  | unknownDestination (target : Target)
  /-- An image has no content, and no blob is waiting for it. -/
  | noImageContent
  /-- A table is declared with something other than a positive number of
  columns. -/
  | badColumnCount (given : Content)
  /-- A cell is opened where the current section has no table. -/
  | noTable
  deriving DecidableEq, Repr

namespace RenderError

def shownTarget : Target → String
  | .missing => "None"
  | .unknown name => Text.quoted name
  | .known destination => Text.quoted destination.name

def message : RenderError → String
  | unsupportedLine shown => "Unsupported line " ++ shown
  | noOpenNote => "No open note in the current section"
  | noOpenCell => "No open table cell in the current section"
  | unknownDestination target => "Unknown render destination " ++ shownTarget target
  | noImageContent => "No image content available"
  | badColumnCount given =>
      "Table column count must be a positive integer, got " ++ given.shown
  | noTable => "Cannot set destination to cell when no table is defined"

end RenderError

end Folio
