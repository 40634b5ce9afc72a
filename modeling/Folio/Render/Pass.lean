import Folio.Document.Basic
import Folio.Markup.Prune
import Folio.Page.Options
import Folio.Render.Destination
import Folio.Render.Inline
import Folio.Table.Register

/-!
# A rendering pass

A pass takes the lines of a document one by one.  It holds the part of the body
that is finished, the current section, and what earlier lines left for later
ones: the destination of content, an open link, a tooltip, a blob, the number
of the next note and the column counts of tables.  The current section is kept
apart from the finished part because nothing else can change any more.

The open link is known by its place in the current section.  That place stays
right as long as the section is current, since sections only grow at their
ends.
-/

namespace Folio.Render

open Markup

structure Blob where
  mediaType : String
  data : String
  deriving DecidableEq, Repr

def Blob.address (blob : Blob) : String :=
  "data:" ++ blob.mediaType ++ ";base64," ++ blob.data

/-- The state of a rendering pass between two lines. -/
structure Pass where
  /-- The body without the current section. -/
  finished : Node
  /-- The current section, which stands last in the body. -/
  current : Node
  /-- How many sections were opened before the current one. -/
  sectionNumber : Nat
  register : Table.Register
  nextNote : Nat
  /-- The place of the open link in the current section. -/
  link : Option Place
  /-- The tooltip that waits for a link or an image. -/
  hint : Option String
  blob : Option Blob
  destination : Destination

def emptySection : Node := .new () "section" []

def aligned (alignment : Alignment) (element : Node) : Node :=
  match Style.alignmentClass? alignment with
  | none => element
  | some name => element.addClass name

namespace Pass

/-- The state in front of the first line, given the body without sections. -/
def start (body : Node) : Pass :=
  ⟨body, emptySection, 0, .empty, 1, none, none, none, .body⟩

def body (pass : Pass) : Node := pass.finished.appendChild pass.current

def reset (pass : Pass) : Pass := { pass with link := none, hint := none }

/-- Close the current section and open another one after it. -/
def openSection (pass : Pass) (finished current : Node) : Pass :=
  { pass with finished := finished, current := current, sectionNumber := pass.sectionNumber + 1 }

/-- Append an element where content goes; the second component is its
place. -/
def append (pass : Pass) (child : Node) : Except RenderError (Pass × Place) := do
  let (current, place) ← resolve pass.current pass.destination
  let (grown, position) := current.appendAt place child
  return ({ pass with current := grown }, position)

/-- An element with the waiting tooltip, if that is not empty. -/
def titled (pass : Pass) (element : Node) : Node :=
  match pass.hint with
  | none | some "" => element
  | some hint => element.set "title" hint

/-- A new section.  The one before it is dropped when it has no content, and a
rule may be put between the two, provided that there are two. -/
def newSection (pass : Pass) (line : Directive) : Pass :=
  let kept :=
    if pass.current.hasContent then pass.finished.appendChild pass.current
    else pass.finished
  let ruled :=
    if line.breakBefore && kept.children.any (·.isTagged ["section"]) then
      kept.appendChild (.new () "hr" [])
    else kept
  { pass.openSection ruled (aligned line.alignment emptySection) with
    link := none, destination := .body }

/-- Elements that a new paragraph may be opened in. -/
def paragraphContainers : List String := ["aside", "td", "th", "section"]

/-- A new paragraph, next to the one that content goes to. -/
def newParagraph (pass : Pass) (line : Directive) : Except RenderError Pass := do
  let paragraph := aligned line.alignment (.new () "p" [])
  let (current, place) ←
    if pass.destination = .head then pure (pass.current, [])
    else resolve pass.current pass.destination
  let container := (current.closest? paragraphContainers place).getD []
  return { pass with
    current := current.modifyAt (·.appendChild paragraph) container
    link := none }

def newLink (pass : Pass) (line : Directive) : Except RenderError Pass := do
  let link := Element.new () "a" [("href", line.content.asText)]
  let (grown, place) ← pass.append (pass.titled link)
  return { grown with link := some place, hint := none }

def newAnchor (pass : Pass) (line : Directive) : Except RenderError Pass := do
  let (grown, _) ← pass.append (.new () "a" [("name", line.content.asText)])
  return grown

/-- The address of an image and the blob left after it: an image without
content takes the waiting blob. -/
def imageSource (pass : Pass) (line : Directive) :
    Except RenderError (String × Option Blob) :=
  if line.content.isVoid then
    match pass.blob with
    | none => .error .noImageContent
    | some blob => .ok (blob.address, none)
  else .ok (line.content.asText, pass.blob)

def newImage (pass : Pass) (line : Directive) : Except RenderError Pass := do
  let (source, blob) ← pass.imageSource line
  let (grown, _) ← pass.append (pass.titled (.new () "img" [("src", source)]))
  return { grown with blob := blob, hint := none }

def newTable (pass : Pass) (line : Directive) : Except (Failure RenderError) Pass := do
  let (register, current) ←
    Table.declare pass.register pass.sectionNumber pass.current line.content
  return { pass with register := register, current := current }

/-- The reference to a note, which leads to the note and is led back to. -/
def noteMarker (number : Nat) : Node :=
  let marker := (Element.new () "a"
    [("name", s!"note-return-{number}"), ("href", s!"#note-{number}")]).addClass "to-note"
  { marker with text := some (toString number) }

/-- An empty note that begins with the way back to its reference. -/
def noteContainer (number : Nat) : Node :=
  let back := (Element.new () "a"
    [("name", s!"note-{number}"), ("href", s!"#note-return-{number}")]).addClass "from-note"
  ((Element.new () "aside" []).appendChild back).appendChild (.new () "p" [])

/-- A note: its reference where content goes, and the note itself at the end of
the current section. -/
def openNote (pass : Pass) : Except RenderError Pass := do
  let (grown, _) ← pass.append (noteMarker pass.nextNote)
  return { grown with
    current := grown.current.appendChild (noteContainer pass.nextNote)
    nextNote := pass.nextNote + 1 }

/-- A cell in the last table of the current section. -/
def openCell (pass : Pass) (header : Bool) : Except RenderError Pass := do
  let current ← Table.addCell pass.register pass.sectionNumber pass.current header
  return { pass with current := current }

/-- Send what follows to another destination, which is opened first.  A heading
has a section of its own. -/
def redirect (pass : Pass) (line : Directive) : Except RenderError Pass := do
  let unlinked := { pass with link := none }
  match line.target with
  | .known .body => return { unlinked with destination := .body }
  | .known .note => return { ← unlinked.openNote with destination := .note }
  | .known .cell => return { ← unlinked.openCell line.header with destination := .cell }
  | .known .head =>
      return { unlinked.openSection unlinked.body emptySection with destination := .head }
  | target => throw (.unknownDestination target)

/-- Text where content goes, inside the open link if that stands there. -/
def addRun (pass : Pass) (run : TextRun) : Except RenderError Pass := do
  let (current, place) ← resolve pass.current pass.destination
  let target :=
    match pass.link with
    | some link => if place.isPrefixOf link then link else place
    | none => place
  return { pass with current := current.modifyAt (appendRun run) target }

def obey (pass : Pass) (line : Directive) : Except (Failure RenderError) Pass :=
  match line.kind with
  | .newSection => .ok (pass.newSection line)
  | .newParagraph => refuse (pass.newParagraph line)
  | .hint => .ok { pass with hint := some line.content.asText }
  | .link => refuse (pass.newLink line)
  | .anchor => refuse (pass.newAnchor line)
  | .blob => .ok { pass with blob := some ⟨line.mediaType, line.data⟩ }
  | .image => refuse (pass.newImage line)
  | .table => pass.newTable line
  | .destination => refuse (pass.redirect line)
where
  refuse (outcome : Except RenderError Pass) : Except (Failure RenderError) Pass :=
    outcome.mapError .refused

/-- What a line does.  A line that resets drops link and tooltip before
anything else. -/
def step (pass : Pass) (line : Line) : Except (Failure RenderError) Pass :=
  let ready := if line.resets then pass.reset else pass
  match line with
  | .directive directive => ready.obey directive
  | .run run => (ready.addRun run).mapError .refused
  | .foreign shown => .error (.refused (.unsupportedLine shown))

/-- Take lines one after the other, up to the first that cannot be
rendered. -/
def run (pass : Pass) : List Line → Except (Failure RenderError) Pass
  | [] => .ok pass
  | line :: rest => do (← pass.step line).run rest

/-- The states after each line, up to the first line that cannot be rendered,
and how the pass ends. -/
def trace (pass : Pass) : List Line → List Pass × Except (Failure RenderError) Pass
  | [] => ([], .ok pass)
  | line :: rest =>
      match pass.step line with
      | .error failure => ([], .error failure)
      | .ok next =>
          let (following, outcome) := next.trace rest
          (next :: following, outcome)

/-- The pass ends as the last of its traced states says. -/
theorem trace_snd (pass : Pass) (lines : List Line) :
    (pass.trace lines).2 = pass.run lines := by
  induction lines generalizing pass with
  | nil => rfl
  | cons line rest inductionHypothesis =>
      simp only [trace, run]
      cases stepped : pass.step line with
      | error failure => rfl
      | ok next => exact inductionHypothesis next

end Pass

end Folio.Render
