import Folio.Render.Page

/-!
# A renderer that has the whole page at hand

A sheet renders lines like a pass, but nothing is set apart: it holds the page from
the top, and knows the current section and the open link by their places in it.  It
looks for containers up to the top of the page, and every change is a change of the
page at some place, which could be anywhere.
-/

namespace Folio

open Markup Render

/-- The state of a renderer on a whole page between two lines. -/
structure Sheet where
  page : Node
  /-- The place of the current section in the page. -/
  home : Place
  /-- How many sections were opened before the current one. -/
  sectionNumber : Nat
  register : Table.Register
  nextNote : Nat
  /-- The place of the link opened last, unless it was dropped. -/
  link : Option Place
  hint : Option String
  blob : Option Blob
  destination : Destination

namespace Sheet

/-- The place of the body in a page, behind the head. -/
def bodyPlace : Place := [1]

/-- The state in front of the first line, given the head and the body without
sections. -/
def start (head body : Node) : Sheet :=
  let (page, home) := (assemble head body).appendAt bodyPlace emptySection
  ⟨page, home, 0, .empty, 1, none, none, none, .body⟩

def current? (sheet : Sheet) : Option Node := sheet.page.at? sheet.home

def reset (sheet : Sheet) : Sheet := { sheet with link := none, hint := none }

/-- The last child of the current section, when it has the wanted tag, or else a new
one at the end of the section. -/
def lastOrNew (sheet : Sheet) (tag : String) : Node × Place :=
  match sheet.current?.bind (·.lastChild? fun _ => true) with
  | some (index, child) =>
      if child.tag = tag then (sheet.page, sheet.home ++ [index])
      else sheet.page.appendAt sheet.home (.new () tag [])
  | none => sheet.page.appendAt sheet.home (.new () tag [])

/-- The page with an element for content to go to, and the place of that element. -/
def resolve (sheet : Sheet) : Except RenderError (Node × Place) :=
  match sheet.destination with
  | .body => .ok (sheet.lastOrNew "p")
  | .head => .ok (sheet.lastOrNew "h2")
  | .note =>
      match sheet.current?.bind notePlace? with
      | none => .error .noOpenNote
      | some place => .ok (sheet.page, sheet.home ++ place)
  | .cell =>
      match sheet.current?.bind cellPlace? with
      | none => .error .noOpenCell
      | some place => .ok (sheet.page, sheet.home ++ place)

/-- Append an element where content goes; the second component is its place. -/
def append (sheet : Sheet) (child : Node) : Except RenderError (Sheet × Place) := do
  let (page, place) ← sheet.resolve
  let (grown, position) := page.appendAt place child
  return ({ sheet with page := grown }, position)

def titled (sheet : Sheet) (element : Node) : Node :=
  match sheet.hint with
  | none | some "" => element
  | some hint => element.set "title" hint

/-- Append a section to the body and make it the current one. -/
def appendSection (sheet : Sheet) (current : Node) : Sheet :=
  let (page, home) := sheet.page.appendAt bodyPlace current
  { sheet with page := page, home := home, sectionNumber := sheet.sectionNumber + 1 }

/-- Take the current section out of the body when it has no content. -/
def dropVacant (sheet : Sheet) : Sheet :=
  if (sheet.current?.map Element.hasContent).getD true then sheet
  else
    { sheet with
      page := sheet.page.modifyAt (·.removeChild (sheet.home.getLastD 0)) bodyPlace }

/-- Put a rule in front of the current section unless it is the first one. -/
def ruleBefore (sheet : Sheet) : Sheet :=
  let first? := (sheet.page.at? bodyPlace).bind fun body =>
    body.children.findIdx? (·.isTagged ["section"])
  if first?.map (bodyPlace ++ [·]) = some sheet.home then sheet
  else
    let index := sheet.home.getLastD 0
    { sheet with
      page := sheet.page.modifyAt (·.insertChild index (.new () "hr" [])) bodyPlace
      home := bodyPlace ++ [index + 1] }

def newSection (sheet : Sheet) (line : Directive) : Sheet :=
  let opened := sheet.dropVacant.appendSection (aligned line.alignment emptySection)
  { if line.breakBefore then opened.ruleBefore else opened with
    link := none, destination := .body }

/-- A new paragraph, in the nearest container around the element that content goes
to. -/
def newParagraph (sheet : Sheet) (line : Directive) : Except RenderError Sheet := do
  let paragraph := aligned line.alignment (.new () "p" [])
  let (page, container) ←
    if sheet.destination = .head then pure (sheet.page, sheet.home)
    else do
      let (page, place) ← sheet.resolve
      pure (page, (page.closest? Pass.paragraphContainers place).getD sheet.home)
  return { sheet with page := page.modifyAt (·.appendChild paragraph) container, link := none }

def newLink (sheet : Sheet) (line : Directive) : Except RenderError Sheet := do
  let link := Element.new () "a" [("href", line.content.asText)]
  let (grown, place) ← sheet.append (sheet.titled link)
  return { grown with link := some place, hint := none }

def newAnchor (sheet : Sheet) (line : Directive) : Except RenderError Sheet := do
  let (grown, _) ← sheet.append (.new () "a" [("name", line.content.asText)])
  return grown

/-- The address of an image and the blob left after it. -/
def imageSource (sheet : Sheet) (line : Directive) :
    Except RenderError (String × Option Blob) :=
  if line.content.isVoid then
    match sheet.blob with
    | none => .error .noImageContent
    | some blob => .ok (blob.address, none)
  else .ok (line.content.asText, sheet.blob)

def newImage (sheet : Sheet) (line : Directive) : Except RenderError Sheet := do
  let (source, blob) ← sheet.imageSource line
  let (grown, _) ← sheet.append (sheet.titled (.new () "img" [("src", source)]))
  return { grown with blob := blob, hint := none }

def newTable (sheet : Sheet) (line : Directive) : Except (Failure RenderError) Sheet := do
  let columns ← Table.columnCount line.content
  let (page, place) := sheet.page.appendAt sheet.home (.new () "table" [])
  let position : Table.Position := ⟨sheet.sectionNumber, place.getLastD 0⟩
  return { sheet with page := page, register := ⟨(position, columns) :: sheet.register.entries⟩ }

def openNote (sheet : Sheet) : Except RenderError Sheet := do
  let (grown, _) ← sheet.append (Pass.noteMarker sheet.nextNote)
  return { grown with
    page := grown.page.modifyAt (·.appendChild (Pass.noteContainer sheet.nextNote)) grown.home
    nextNote := sheet.nextNote + 1 }

def openCell (sheet : Sheet) (header : Bool) : Except RenderError Sheet :=
  match sheet.current?.bind (·.lastChild? (·.isTagged ["table"])) with
  | none => .error .noTable
  | some (index, _) =>
      match sheet.register.columns? ⟨sheet.sectionNumber, index⟩ with
      | none => .error .noTable
      | some columns =>
          let lay := Table.layCell columns (Table.newCell header)
          .ok { sheet with page := sheet.page.modifyAt lay (sheet.home ++ [index]) }

def redirect (sheet : Sheet) (line : Directive) : Except RenderError Sheet := do
  let unlinked := { sheet with link := none }
  match line.target with
  | .known .body => return { unlinked with destination := .body }
  | .known .note => return { ← unlinked.openNote with destination := .note }
  | .known .cell => return { ← unlinked.openCell line.header with destination := .cell }
  | .known .head => return { unlinked.appendSection emptySection with destination := .head }
  | target => throw (.unknownDestination target)

def addRun (sheet : Sheet) (run : TextRun) : Except RenderError Sheet := do
  let (page, place) ← sheet.resolve
  let target :=
    match sheet.link with
    | some link => if place.isPrefixOf link then link else place
    | none => place
  return { sheet with page := page.modifyAt (appendRun run) target }

def obey (sheet : Sheet) (line : Directive) : Except (Failure RenderError) Sheet :=
  match line.kind with
  | .newSection => .ok (sheet.newSection line)
  | .newParagraph => (sheet.newParagraph line).mapError .refused
  | .hint => .ok { sheet with hint := some line.content.asText }
  | .link => (sheet.newLink line).mapError .refused
  | .anchor => (sheet.newAnchor line).mapError .refused
  | .blob => .ok { sheet with blob := some ⟨line.mediaType, line.data⟩ }
  | .image => (sheet.newImage line).mapError .refused
  | .table => sheet.newTable line
  | .destination => (sheet.redirect line).mapError .refused

def step (sheet : Sheet) (line : Line) : Except (Failure RenderError) Sheet :=
  let ready := if line.resets then sheet.reset else sheet
  match line with
  | .directive line => ready.obey line
  | .run run => (ready.addRun run).mapError .refused
  | .foreign shown => .error (.refused (.unsupportedLine shown))

/-- The states after each line, up to the first that is refused, and how the run
ends. -/
def trace (sheet : Sheet) : List Line → List Sheet × Except (Failure RenderError) Sheet
  | [] => ([], .ok sheet)
  | line :: rest =>
      match sheet.step line with
      | .error failure => ([], .error failure)
      | .ok next =>
          let (following, outcome) := next.trace rest
          (next :: following, outcome)

end Sheet

end Folio
