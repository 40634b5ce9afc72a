import Folio.Proofs.Frames

/-!
# Drafts

A draft is the state of a rendering pass with its tree replaced by what the tree
is made of.  It keeps references to what was opened last instead of searching:
the block that content for a note or a cell goes to, the table that takes the
next cell, and the link that is open.  Every line changes a draft in one block
at most, or adds blocks at the end.
-/

namespace Folio

open Markup Render

namespace Draft

/-- What stands in a body after its heading: closed sections, and rules between
them. -/
inductive Part where
  | rule
  | closed (part : Section)
  deriving DecidableEq

def Part.node : Part → Node
  | .rule => .new () "hr" []
  | .closed part => part.node

def Part.isSection : Part → Bool
  | .rule => false
  | .closed _ => true

/-- Where content goes, with the index of the block when one must be open. -/
inductive Focus where
  | body
  | head
  | note (index : Nat)
  | cell (index : Nat)
  deriving DecidableEq

def Focus.destination : Focus → Destination
  | .body => .body
  | .head => .head
  | .note _ => .note
  | .cell _ => .cell

/-- A link by the index of its block and its index in the open flow there. -/
structure LinkReference where
  block : Nat
  item : Nat
  deriving DecidableEq

/-! ### Opening blocks again -/

def Cell.opened (cell : Cell) : CellFrame × List Item :=
  match cell.paragraphs.getLast? with
  | none => (.lead, cell.lead)
  | some last => (.paragraph cell.lead cell.paragraphs.dropLast last.alignment, last.items)

/-- The frame of a block, and its open flow, if it has any. -/
def Block.opened? : Block → Option (Frame × List Item)
  | .paragraph single => some (.paragraph single.alignment, single.items)
  | .heading items => some (.heading, items)
  | .note footnote => do
      let last ← footnote.paragraphs.getLast?
      return (.note footnote.number footnote.paragraphs.dropLast last.alignment, last.items)
  | .grid table => do
      let row ← table.rows.getLast?
      let cell ← row.getLast?
      let (inner, items) := cell.opened
      return (.cell table.columns table.rows.dropLast row.dropLast cell.header inner, items)

@[simp]
theorem opened?_fill (frame : Frame) (items : List Item) :
    (frame.fill items).opened? = some (frame, items) := by
  cases frame with
  | paragraph alignment => rfl
  | heading => rfl
  | note number earlier alignment => simp [Frame.fill, Block.opened?]
  | cell columns rows row header inner =>
      cases inner <;> simp [Frame.fill, Block.opened?, CellFrame.fill, Cell.opened]

theorem fill_opened (cell : Cell) : cell.opened.1.fill cell.header cell.opened.2 = cell := by
  obtain ⟨header, lead, paragraphs⟩ := cell
  rcases List.eq_nil_or_concat paragraphs with rfl | ⟨earlier, last, rfl⟩
  · rfl
  · simp [Cell.opened, CellFrame.fill]

/-- An opened block is what filling its frame again gives. -/
theorem eq_fill_of_opened? {block : Block} {frame : Frame} {items : List Item}
    (opened : block.opened? = some (frame, items)) : block = frame.fill items := by
  cases block with
  | paragraph single =>
      cases opened
      rfl
  | heading held =>
      cases opened
      rfl
  | note footnote =>
      obtain ⟨number, paragraphs⟩ := footnote
      simp only [Block.opened?, Option.bind_eq_bind, Option.bind_eq_some_iff] at opened
      obtain ⟨last, isLast, same⟩ := opened
      obtain ⟨earlier, rfl⟩ := List.getLast?_eq_some_iff.mp isLast
      cases same
      simp [Frame.fill]
  | grid table =>
      obtain ⟨columns, allRows⟩ := table
      simp only [Block.opened?, Option.bind_eq_bind, Option.bind_eq_some_iff] at opened
      obtain ⟨row, isLastRow, cell, isLastCell, same⟩ := opened
      obtain ⟨rows, rfl⟩ := List.getLast?_eq_some_iff.mp isLastRow
      obtain ⟨cells, rfl⟩ := List.getLast?_eq_some_iff.mp isLastCell
      cases same
      simp [Frame.fill, fill_opened]

/-- A block with its open flow changed. -/
def Block.modifyItems (change : List Item → List Item) (block : Block) : Block :=
  match block.opened? with
  | none => block
  | some (frame, items) => frame.fill (change items)

/-- A note or cell with another paragraph, which is open. -/
def Block.addParagraph (alignment : Alignment) (block : Block) : Block :=
  match block.opened? with
  | none => block
  | some (frame, items) => (frame.next items alignment).fill []

@[simp]
theorem modifyItems_fill (change : List Item → List Item) (frame : Frame)
    (items : List Item) :
    (frame.fill items).modifyItems change = frame.fill (change items) := by
  simp [Block.modifyItems]

@[simp]
theorem addParagraph_fill (alignment : Alignment) (frame : Frame) (items : List Item) :
    (frame.fill items).addParagraph alignment = (frame.next items alignment).fill [] := by
  simp [Block.addParagraph]

def Grid.cellCount (table : Grid) : Nat := table.rows.flatten.length

/-- A table with another cell: in the last row, or in a new one when there is
none or the cells so far fill whole rows. -/
def Grid.addCell (header : Bool) (table : Grid) : Grid :=
  match table.rows.getLast? with
  | none => { table with rows := [[⟨header, [], []⟩]] }
  | some row =>
      if table.cellCount % table.columns = 0 then
        { table with rows := table.rows ++ [[⟨header, [], []⟩]] }
      else { table with rows := table.rows.dropLast ++ [row ++ [⟨header, [], []⟩]] }

theorem addCell_full (header : Bool) {grid : Grid} (full : grid.cellCount % grid.columns = 0) :
    grid.addCell header = { grid with rows := grid.rows ++ [[⟨header, [], []⟩]] } := by
  unfold Grid.addCell
  cases last : grid.rows.getLast? with
  | none => simp [List.getLast?_eq_none_iff.mp last]
  | some row => simp [full]

theorem addCell_begun (header : Bool) {grid : Grid} (begun : grid.cellCount % grid.columns ≠ 0) :
    ∃ rows row, grid.rows = rows ++ [row] ∧
      grid.addCell header = { grid with rows := rows ++ [row ++ [⟨header, [], []⟩]] } := by
  unfold Grid.addCell
  cases last : grid.rows.getLast? with
  | none =>
      refine absurd ?_ begun
      simp [Grid.cellCount, List.getLast?_eq_none_iff.mp last]
  | some row =>
      obtain ⟨rows, split⟩ := List.getLast?_eq_some_iff.mp last
      exact ⟨rows, row, split, by simp [begun, split]⟩

def Block.addCell (header : Bool) : Block → Block
  | .grid table => .grid (table.addCell header)
  | block => block

end Draft

open Draft

/-- The state of a rendering pass between two lines, without a tree. -/
structure Draft where
  /-- What stands in front of the current section. -/
  parts : List Part
  current : Draft.Section
  /-- The index of the table that takes the next cell. -/
  table : Option Nat
  focus : Focus
  /-- The link opened last, unless it was dropped. -/
  link : Option LinkReference
  nextNote : Nat
  hint : Option String
  blob : Option Blob

namespace Draft

def start : Draft := ⟨[], ⟨.unset, []⟩, none, .body, none, 1, none, none⟩

def blocks (draft : Draft) : List Block := draft.current.blocks

def withBlocks (draft : Draft) (blocks : List Block) : Draft :=
  { draft with current := { draft.current with blocks := blocks } }

def reset (draft : Draft) : Draft := { draft with link := none, hint := none }

/-- The blocks, with one for content to go to made if necessary, and the index
of the block that content goes to. -/
def reach (draft : Draft) : List Block × Nat :=
  match draft.focus with
  | .body =>
      match draft.blocks.getLast? with
      | some (.paragraph _) => (draft.blocks, draft.blocks.length - 1)
      | _ => (draft.blocks ++ [.paragraph ⟨.unset, []⟩], draft.blocks.length)
  | .head =>
      match draft.blocks.getLast? with
      | some (.heading _) => (draft.blocks, draft.blocks.length - 1)
      | _ => (draft.blocks ++ [.heading []], draft.blocks.length)
  | .note index | .cell index => (draft.blocks, index)

/-- Change the flow that content goes to. -/
def edit (draft : Draft) (change : List Item → List Item) : Draft :=
  draft.withBlocks (draft.reach.1.modify draft.reach.2 (·.modifyItems change))

def put (draft : Draft) (item : Item) : Draft := draft.edit (· ++ [item])

def reachedCount (draft : Draft) : Nat :=
  ((draft.reach.1[draft.reach.2]?.bind Block.opened?).map fun (_, items) => items.length).getD 0

/-- A new section.  The one before it is dropped when it has no content, and a
rule may be put between the two, provided that there are two. -/
def newSection (draft : Draft) (line : Directive) : Draft :=
  let kept :=
    if draft.blocks = [] then draft.parts else draft.parts ++ [.closed draft.current]
  let ruled :=
    if line.breakBefore && kept.any Part.isSection then kept ++ [.rule] else kept
  { draft with
    parts := ruled, current := ⟨line.alignment, []⟩, table := none, focus := .body, link := none }

/-- A new paragraph, next to the flow that content goes to. -/
def newParagraph (draft : Draft) (line : Directive) : Draft :=
  let added :=
    match draft.focus with
    | .head => draft.blocks ++ [.paragraph ⟨line.alignment, []⟩]
    | .body => draft.reach.1 ++ [.paragraph ⟨line.alignment, []⟩]
    | .note index | .cell index => draft.blocks.modify index (·.addParagraph line.alignment)
  { draft.withBlocks added with link := none }

def newLink (draft : Draft) (line : Directive) : Draft :=
  { draft.put (.link line.content.asText draft.hint []) with
    link := some ⟨draft.reach.2, draft.reachedCount⟩
    hint := none }

/-- An image; one without content takes the waiting blob. -/
def newImage (draft : Draft) (line : Directive) : Except RenderError Draft :=
  if line.content.isVoid then
    match draft.blob with
    | none => .error .noImageContent
    | some blob =>
        .ok { draft.put (.image blob.address draft.hint) with blob := none, hint := none }
  else .ok { draft.put (.image line.content.asText draft.hint) with hint := none }

def newTable (draft : Draft) (line : Directive) : Except (Failure RenderError) Draft :=
  match Table.columnCount line.content with
  | .error failure => .error failure
  | .ok columns =>
      .ok { draft.withBlocks (draft.blocks ++ [.grid ⟨columns, []⟩]) with
            table := some draft.blocks.length }

/-- A note: its reference where content goes, and the note itself at the end of
the current section. -/
def openNote (draft : Draft) : Draft :=
  let marked := draft.put (.marker draft.nextNote)
  { marked.withBlocks (marked.blocks ++ [.note ⟨draft.nextNote, [⟨.unset, []⟩]⟩]) with
    nextNote := draft.nextNote + 1
    focus := .note marked.blocks.length }

def openCell (draft : Draft) (header : Bool) : Except RenderError Draft :=
  match draft.table with
  | none => .error .noTable
  | some index =>
      .ok { draft.withBlocks (draft.blocks.modify index (·.addCell header)) with
            focus := .cell index }

def openHead (draft : Draft) : Draft :=
  { draft with
    parts := draft.parts ++ [.closed draft.current]
    current := ⟨.unset, []⟩
    table := none
    focus := .head }

/-- Send what follows to another destination, which is opened first. -/
def redirect (draft : Draft) (line : Directive) : Except RenderError Draft :=
  let unlinked := { draft with link := none }
  match line.target with
  | .known .body => .ok { unlinked with focus := .body }
  | .known .note => .ok unlinked.openNote
  | .known .cell => unlinked.openCell line.header
  | .known .head => .ok unlinked.openHead
  | target => .error (.unknownDestination target)

/-- Text where content goes, inside the open link if that stands there. -/
def addRun (draft : Draft) (run : TextRun) : Draft :=
  match draft.link with
  | none => draft.put (.text run)
  | some link =>
      if link.block = draft.reach.2 then draft.edit (·.modify link.item (·.addRun run))
      else draft.put (.text run)

def obey (draft : Draft) (line : Directive) : Except (Failure RenderError) Draft :=
  match line.kind with
  | .newSection => .ok (draft.newSection line)
  | .newParagraph => .ok (draft.newParagraph line)
  | .hint => .ok { draft with hint := some line.content.asText }
  | .link => .ok (draft.newLink line)
  | .anchor => .ok (draft.put (.anchor line.content.asText))
  | .blob => .ok { draft with blob := some ⟨line.mediaType, line.data⟩ }
  | .image => (draft.newImage line).mapError .refused
  | .table => draft.newTable line
  | .destination => (draft.redirect line).mapError .refused

def step (draft : Draft) (line : Line) : Except (Failure RenderError) Draft :=
  let ready := if line.resets then draft.reset else draft
  match line with
  | .directive directive => ready.obey directive
  | .run run => .ok (ready.addRun run)
  | .foreign shown => .error (.refused (.unsupportedLine shown))

/-- Take lines one after the other, up to the first that is refused. -/
def run (draft : Draft) : List Line → Except (Failure RenderError) Draft
  | [] => .ok draft
  | line :: rest =>
      match draft.step line with
      | .error failure => .error failure
      | .ok next => next.run rest

theorem run_cons_ok {draft last : Draft} {line : Line} {rest : List Line}
    (ran : draft.run (line :: rest) = .ok last) :
    ∃ next, draft.step line = .ok next ∧ next.run rest = .ok last := by
  unfold run at ran
  split at ran
  · cases ran
  · rename_i next stepped
    exact ⟨next, stepped, ran⟩

/-- What every line keeps is kept by a run of lines. -/
theorem run_keeps {Holds : Draft → Prop}
    (keeps : ∀ {draft line next}, Holds draft → draft.step line = .ok next → Holds next)
    {draft last : Draft} (holds : Holds draft) {lines : List Line}
    (ran : draft.run lines = .ok last) : Holds last := by
  induction lines generalizing draft with
  | nil =>
      cases ran
      exact holds
  | cons line rest inductionHypothesis =>
      obtain ⟨next, stepped, following⟩ := run_cons_ok ran
      exact inductionHypothesis (keeps holds stepped) following

/-! ### What is made of a draft by a line that is taken -/

/-- Wording a failure makes no success. -/
theorem ok_of_mapError {Cause Other Result : Type} {outcome : Except Cause Result}
    {wording : Cause → Other} {result : Result} (succeeds : outcome.mapError wording = .ok result) :
    outcome = .ok result := by
  cases outcome with
  | error failure => cases succeeds
  | ok other =>
      cases succeeds
      rfl

section

variable {draft next : Draft} {line : Directive}

/-- An image takes its address from the blob or from its content, and uses the tooltip
up. -/
theorem newImage_ok (shown : draft.newImage line = .ok next) :
    ∃ source,
      (line.content.isVoid = true → ∃ blob, draft.blob = some blob ∧ source = blob.address) ∧
      (line.content.isVoid = false → source = line.content.asText) ∧
      next = { draft.put (.image source draft.hint) with
        blob := if line.content.isVoid then none else draft.blob, hint := none } := by
  unfold newImage at shown
  cases isVoid : line.content.isVoid with
  | false =>
      rw [isVoid] at shown
      cases shown
      exact ⟨_, by rintro ⟨⟩, fun _ => rfl, rfl⟩
  | true =>
      rw [if_pos isVoid] at shown
      split at shown
      · cases shown
      · rename_i blob waiting
        cases shown
        exact ⟨blob.address, fun _ => ⟨blob, waiting, rfl⟩, by rintro ⟨⟩, rfl⟩

theorem newTable_ok (declared : draft.newTable line = .ok next) :
    ∃ columns, Table.columnCount line.content = .ok columns ∧
      next = { draft.withBlocks (draft.blocks ++ [.grid ⟨columns, []⟩]) with
        table := some draft.blocks.length } := by
  unfold newTable at declared
  split at declared
  · cases declared
  · rename_i columns counted
    cases declared
    exact ⟨columns, counted, rfl⟩

theorem openCell_ok {header : Bool} (opens : draft.openCell header = .ok next) :
    ∃ index, draft.table = some index ∧
      next = { draft.withBlocks (draft.blocks.modify index (·.addCell header)) with
        focus := .cell index } := by
  unfold openCell at opens
  split at opens
  · cases opens
  · rename_i index isTable
    cases opens
    exact ⟨index, isTable, rfl⟩

/-- What a change of destination makes of a draft when it is not refused. -/
inductive Redirects (draft : Draft) (line : Directive) : Draft → Prop
  | body (target : line.target = .known .body) :
      Redirects draft line { draft with link := none, focus := .body }
  | note (target : line.target = .known .note) :
      Redirects draft line (openNote { draft with link := none })
  | cell (target : line.target = .known .cell) {next : Draft}
      (opens : openCell { draft with link := none } line.header = .ok next) :
      Redirects draft line next
  | head (target : line.target = .known .head) :
      Redirects draft line (openHead { draft with link := none })

theorem redirects_of_ok (redirected : draft.redirect line = .ok next) :
    draft.Redirects line next := by
  unfold redirect at redirected
  split at redirected
  case h_1 target =>
    cases redirected
    exact .body target
  case h_2 target =>
    cases redirected
    exact .note target
  case h_3 target => exact .cell target redirected
  case h_4 target =>
    cases redirected
    exact .head target
  case h_5 => cases redirected

/-- What a directive makes of a draft when it is not refused, kind by kind. -/
inductive Obeys (draft : Draft) (line : Directive) : Draft → Prop
  | newSection (kind : line.kind = .newSection) : Obeys draft line (draft.newSection line)
  | newParagraph (kind : line.kind = .newParagraph) : Obeys draft line (draft.newParagraph line)
  | hint (kind : line.kind = .hint) :
      Obeys draft line { draft with hint := some line.content.asText }
  | link (kind : line.kind = .link) : Obeys draft line (draft.newLink line)
  | anchor (kind : line.kind = .anchor) :
      Obeys draft line (draft.put (.anchor line.content.asText))
  | blob (kind : line.kind = .blob) :
      Obeys draft line { draft with blob := some ⟨line.mediaType, line.data⟩ }
  | image (kind : line.kind = .image) {next : Draft} (shown : draft.newImage line = .ok next) :
      Obeys draft line next
  | table (kind : line.kind = .table) {next : Draft} (declared : draft.newTable line = .ok next) :
      Obeys draft line next
  | destination (kind : line.kind = .destination) {next : Draft}
      (redirected : draft.redirect line = .ok next) : Obeys draft line next

theorem obeys_of_ok (obeyed : draft.obey line = .ok next) : draft.Obeys line next := by
  unfold obey at obeyed
  cases kind : line.kind <;> simp only [kind] at obeyed
  case image => exact .image kind (ok_of_mapError obeyed)
  case table => exact .table kind obeyed
  case destination => exact .destination kind (ok_of_mapError obeyed)
  case newSection => exact Except.ok.inj obeyed ▸ .newSection kind
  case newParagraph => exact Except.ok.inj obeyed ▸ .newParagraph kind
  case hint => exact Except.ok.inj obeyed ▸ .hint kind
  case link => exact Except.ok.inj obeyed ▸ .link kind
  case anchor => exact Except.ok.inj obeyed ▸ .anchor kind
  case blob => exact Except.ok.inj obeyed ▸ .blob kind

end

/-! ### What is told of parts and blocks -/

theorem mem_parts_newSection {draft : Draft} {line : Directive} {part : Part}
    (member : part ∈ (draft.newSection line).parts) :
    part = .rule ∨ part ∈ draft.parts ++ [.closed draft.current] := by
  have unruled (kept : List Part) (wanted : Bool)
      (ruled : part ∈ if wanted then kept ++ [.rule] else kept) : part = .rule ∨ part ∈ kept := by
    cases wanted
    · exact .inr ruled
    · simpa [or_comm] using ruled
  rcases unruled _ _ member with rule | kept
  · exact .inl rule
  · split at kept
    · exact .inr (List.mem_append_left _ kept)
    · exact .inr kept

/-- A new section leaves out nothing that anything is told of. -/
theorem flatMap_newSection {Told : Type} {tell : Part → List Told} (rule : tell .rule = [])
    {draft : Draft} (vacant : draft.blocks = [] → tell (.closed draft.current) = [])
    (line : Directive) :
    (draft.newSection line).parts.flatMap tell =
      (draft.parts ++ [Part.closed draft.current]).flatMap tell := by
  have unruled (kept : List Part) (wanted : Bool) :
      (if wanted then kept ++ [.rule] else kept).flatMap tell = kept.flatMap tell := by
    cases wanted <;> simp [rule]
  rw [Draft.newSection, unruled]
  split
  · rename_i empty
    simp [vacant empty]
  · rfl

/-- Blocks that content is to go to are made without anything in them. -/
theorem flatMap_reach {Told : Type} {tell : Block → List Told}
    (paragraph : tell (.paragraph ⟨.unset, []⟩) = []) (heading : tell (.heading []) = [])
    (draft : Draft) :
    draft.reach.1.flatMap tell = draft.blocks.flatMap tell := by
  unfold reach
  split
  · split
    · rfl
    · simp [paragraph]
  · split
    · rfl
    · simp [heading]
  · rfl
  · rfl

end Draft

end Folio
