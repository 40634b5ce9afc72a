import Folio.Render.Pass

/-!
# A renderer that never searches

A tracker renders lines like a pass, but it keeps references instead of looking
elements up in the tree: to what was appended to the current section last, to
the note or cell that is open and the element in it that takes content, to the
table that takes the next cell, and to the open link with the element that holds
it.  A reference is made when its element is, and followed from then on.
-/

namespace Folio

open Markup Render

namespace Tracker

/-- What was appended to the current section last, as far as text may go
there. -/
inductive Recent where
  | other
  | paragraph (place : Place)
  | heading (place : Place)
  deriving DecidableEq, Repr

/-- Where content goes.  An open note or cell is known by its own place and by
that of the element in it that takes content: the paragraph created there last,
or the cell itself. -/
inductive Spot where
  | body
  | head
  | inside (container place : Place)
  deriving DecidableEq, Repr

structure OpenTable where
  place : Place
  columns : Nat
  cells : Nat
  rows : Nat
  deriving DecidableEq, Repr

/-- The link opened last, and the element that holds it. -/
structure OpenLink where
  holder : Place
  place : Place
  deriving DecidableEq, Repr

end Tracker

open Tracker

/-- The state of a tracking renderer between two lines. -/
structure Tracker where
  /-- The body without the current section. -/
  finished : Node
  current : Node
  /-- Whether there is a section in front of the current one. -/
  sectionKept : Bool
  recent : Recent
  spot : Spot
  table : Option OpenTable
  nextNote : Nat
  link : Option OpenLink
  hint : Option String
  blob : Option Blob

namespace Tracker

/-- The state in front of the first line, given the body without sections. -/
def start (body : Node) : Tracker :=
  ⟨body, emptySection, false, .other, .body, none, 1, none, none, none⟩

def body (tracker : Tracker) : Node := tracker.finished.appendChild tracker.current

def reset (tracker : Tracker) : Tracker := { tracker with link := none, hint := none }

def appendBlock (tracker : Tracker) (block : Node) (recent : Place → Recent) :
    Tracker × Place :=
  let (current, place) := tracker.current.appendAt [] block
  ({ tracker with current := current, recent := recent place }, place)

/-- The element that content goes to, made if necessary. -/
def reach (tracker : Tracker) : Tracker × Place :=
  match tracker.spot with
  | .body =>
      match tracker.recent with
      | .paragraph place => (tracker, place)
      | _ => tracker.appendBlock (.new () "p" []) .paragraph
  | .head =>
      match tracker.recent with
      | .heading place => (tracker, place)
      | _ => tracker.appendBlock (.new () "h2" []) .heading
  | .inside _ place => (tracker, place)

/-- Append an element where content goes; the second component tells where it
stands and what holds it. -/
def append (tracker : Tracker) (child : Node) : Tracker × OpenLink :=
  let (reached, holder) := tracker.reach
  let (current, place) := reached.current.appendAt holder child
  ({ reached with current := current }, ⟨holder, place⟩)

def titled (tracker : Tracker) (element : Node) : Node :=
  match tracker.hint with
  | none | some "" => element
  | some hint => element.set "title" hint

/-- A new section, and a rule in front of it if there is a section before. -/
def newSection (tracker : Tracker) (line : Directive) : Tracker :=
  let (kept, sectionKept) :=
    if tracker.current.hasContent then (tracker.finished.appendChild tracker.current, true)
    else (tracker.finished, tracker.sectionKept)
  let ruled :=
    if line.breakBefore && sectionKept then kept.appendChild (.new () "hr" []) else kept
  { tracker with
    finished := ruled
    current := aligned line.alignment emptySection
    sectionKept := sectionKept
    recent := .other
    spot := .body
    table := none
    link := none }

def newParagraph (tracker : Tracker) (line : Directive) : Tracker :=
  let paragraph := aligned line.alignment (.new () "p" [])
  match tracker.spot with
  | .body => { (tracker.reach.1.appendBlock paragraph .paragraph).1 with link := none }
  | .head => { (tracker.appendBlock paragraph .paragraph).1 with link := none }
  | .inside container _ =>
      let (current, place) := tracker.current.appendAt container paragraph
      { tracker with current := current, spot := .inside container place, link := none }

def newLink (tracker : Tracker) (line : Directive) : Tracker :=
  let (grown, link) := tracker.append
    (tracker.titled (.new () "a" [("href", line.content.asText)]))
  { grown with link := some link, hint := none }

def newImage (tracker : Tracker) (line : Directive) : Except RenderError Tracker :=
  let image (source : String) : Node := tracker.titled (.new () "img" [("src", source)])
  if line.content.isVoid then
    match tracker.blob with
    | none => .error .noImageContent
    | some blob =>
        .ok { (tracker.append (image blob.address)).1 with blob := none, hint := none }
  else .ok { (tracker.append (image line.content.asText)).1 with hint := none }

def newTable (tracker : Tracker) (line : Directive) :
    Except (Failure RenderError) Tracker :=
  match Table.columnCount line.content with
  | .error failure => .error failure
  | .ok columns =>
      let (grown, place) := tracker.appendBlock (.new () "table" []) fun _ => .other
      .ok { grown with table := some ⟨place, columns, 0, 0⟩ }

def openNote (tracker : Tracker) : Tracker :=
  let (marked, _) := tracker.append (Pass.noteMarker tracker.nextNote)
  let (grown, place) := marked.appendBlock (Pass.noteContainer tracker.nextNote) fun _ => .other
  { grown with spot := .inside place (place ++ [1]), nextNote := tracker.nextNote + 1 }

/-- The section with a row in the table that takes the next cell, and how many
rows the table has then: a row is begun when the cells so far fill whole
rows. -/
def OpenTable.beginRow (table : OpenTable) (current : Node) : Node × Nat :=
  if table.cells % table.columns = 0 then
    ((current.appendAt table.place (.new () "tr" [])).1, table.rows + 1)
  else (current, table.rows)

def openCell (tracker : Tracker) (header : Bool) : Except RenderError Tracker :=
  match tracker.table with
  | none => .error .noTable
  | some table =>
      let (begun, rows) := table.beginRow tracker.current
      let (current, place) :=
        begun.appendAt (table.place ++ [rows - 1]) (Table.newCell header)
      .ok { tracker with
            current := current
            spot := .inside place place
            table := some { table with cells := table.cells + 1, rows := rows } }

def redirect (tracker : Tracker) (line : Directive) : Except RenderError Tracker :=
  let unlinked := { tracker with link := none }
  match line.target with
  | .known .body => .ok { unlinked with spot := .body }
  | .known .note => .ok unlinked.openNote
  | .known .cell => unlinked.openCell line.header
  | .known .head =>
      .ok { unlinked with
            finished := unlinked.body
            current := emptySection
            sectionKept := true
            recent := .other
            spot := .head
            table := none }
  | target => .error (.unknownDestination target)

/-- The open link when an element holds it, or else that element. -/
def aim (tracker : Tracker) (holder : Place) : Place :=
  match tracker.link with
  | some link => if link.holder = holder then link.place else holder
  | none => holder

def addRun (tracker : Tracker) (run : TextRun) : Tracker :=
  let (reached, holder) := tracker.reach
  { reached with current := reached.current.modifyAt (appendRun run) (tracker.aim holder) }

def obey (tracker : Tracker) (line : Directive) : Except (Failure RenderError) Tracker :=
  match line.kind with
  | .newSection => .ok (tracker.newSection line)
  | .newParagraph => .ok (tracker.newParagraph line)
  | .hint => .ok { tracker with hint := some line.content.asText }
  | .link => .ok (tracker.newLink line)
  | .anchor => .ok (tracker.append (.new () "a" [("name", line.content.asText)])).1
  | .blob => .ok { tracker with blob := some ⟨line.mediaType, line.data⟩ }
  | .image => (tracker.newImage line).mapError .refused
  | .table => tracker.newTable line
  | .destination => (tracker.redirect line).mapError .refused

def step (tracker : Tracker) (line : Line) : Except (Failure RenderError) Tracker :=
  let ready := if line.resets then tracker.reset else tracker
  match line with
  | .directive line => ready.obey line
  | .run run => .ok (ready.addRun run)
  | .foreign shown => .error (.refused (.unsupportedLine shown))

/-- The states after each line, up to the first that is refused, and how the run
ends. -/
def trace (tracker : Tracker) : List Line → List Tracker × Except (Failure RenderError) Tracker
  | [] => ([], .ok tracker)
  | line :: rest =>
      match tracker.step line with
      | .error failure => ([], .error failure)
      | .ok next =>
          let (following, outcome) := next.trace rest
          (next :: following, outcome)

/-- What can be seen of a tracker: the body as it stands, and where content goes,
with the section in which that is made. -/
def view (tracker : Tracker) : Node × Except RenderError (Node × Place) :=
  (tracker.body, .ok (tracker.reach.1.current, tracker.reach.2))

end Tracker

/-- What can be seen of a pass: the body as it stands, and where a search finds
that content goes, with the section in which that is made. -/
def Render.Pass.view (pass : Pass) : Node × Except RenderError (Node × Place) :=
  (pass.body, resolve pass.current pass.destination)

end Folio
