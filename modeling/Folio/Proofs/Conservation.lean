import Folio.Proofs.Signs

/-!
# No text is lost

What is read of a page outside its tables is what the lines say whose content
did not go to a cell, in their order and in their styles; what is read inside
its tables is what the others say.  Each line adds what it says behind
everything that is read so far on its side.  On the other side blocks may
follow: tables that take further cells stand in front of later paragraphs and
notes.
-/

namespace Folio

open Markup Render

/-- What must be known of earlier lines to tell how a line is read: where its
content goes, and which number the next note has. -/
structure Cursor where
  destination : Destination
  nextNote : Nat
  deriving DecidableEq, Repr

namespace Cursor

def start : Cursor := ⟨.body, 1⟩

def inTable (cursor : Cursor) : Bool := cursor.destination == .cell

def after (cursor : Cursor) : Line → Cursor
  | .directive line =>
      match line.kind, line.target with
      | .newSection, _ => { cursor with destination := .body }
      | .destination, .known .note => ⟨.note, cursor.nextNote + 1⟩
      | .destination, .known destination => { cursor with destination := destination }
      | _, _ => cursor
  | _ => cursor

/-- What a line is to be read as: a run as its text, and the opening of a note
as the number of the note. -/
def signs (cursor : Cursor) : Line → List Sign
  | .run run => run.signs cursor.inTable
  | .directive line =>
      if line.kind = .destination ∧ line.target = .known .note then
        numberSigns cursor.inTable cursor.nextNote
      else []
  | .foreign _ => []

/-- What lines are to be read as, one after the other. -/
def signsOf (cursor : Cursor) : List Line → List Sign
  | [] => []
  | line :: rest => cursor.signs line ++ (cursor.after line).signsOf rest

end Cursor

/-- What is read on one side: inside tables, or outside. -/
def Sign.onSide (inTable : Bool) (signs : List Sign) : List Sign :=
  signs.filter (·.inTable == inTable)

namespace Sign

@[simp]
theorem onSide_nil (inTable : Bool) : onSide inTable [] = [] := rfl

@[simp]
theorem onSide_append (inTable : Bool) (before after : List Sign) :
    onSide inTable (before ++ after) = onSide inTable before ++ onSide inTable after :=
  List.filter_append before after

theorem onSide_eq_nil {inTable side : Bool} {signs : List Sign}
    (placed : ∀ sign ∈ signs, sign.inTable = inTable) (other : side ≠ inTable) :
    onSide side signs = [] := by
  rw [onSide, List.filter_eq_nil_iff]
  intro sign member
  simpa [placed sign member] using Ne.symm other

end Sign

namespace Draft

open Sign

def cursor (draft : Draft) : Cursor := ⟨draft.focus.destination, draft.nextNote⟩

/-! ### On which side blocks are read -/

theorem inTable_of_mem_run {inTable : Bool} {run : TextRun} {sign : Sign}
    (member : sign ∈ run.signs inTable) : sign.inTable = inTable := by
  obtain ⟨glyph, -, rfl⟩ := List.mem_map.mp member
  rfl

theorem inTable_of_mem_items {inTable : Bool} {items : List Item} {sign : Sign}
    (member : sign ∈ itemSigns inTable items) : sign.inTable = inTable := by
  obtain ⟨item, -, inItem⟩ := List.mem_flatMap.mp member
  cases item with
  | text run => exact inTable_of_mem_run inItem
  | link address hint runs =>
      obtain ⟨run, -, inRun⟩ := List.mem_flatMap.mp inItem
      exact inTable_of_mem_run inRun
  | anchor name => cases inItem
  | image source hint => cases inItem
  | marker number =>
      obtain ⟨c, -, rfl⟩ := List.mem_map.mp inItem
      rfl

theorem inTable_of_mem_paragraphs {inTable : Bool} {paragraphs : List Paragraph} {sign : Sign}
    (member : sign ∈ paragraphs.flatMap (·.signs inTable)) : sign.inTable = inTable := by
  obtain ⟨paragraph, -, inParagraph⟩ := List.mem_flatMap.mp member
  exact inTable_of_mem_items inParagraph

/-- Tables are read on the one side, and all other blocks on the other. -/
theorem inTable_of_mem_block {block : Block} {sign : Sign} (member : sign ∈ block.signs) :
    sign.inTable = block.kind.isGrid := by
  cases block with
  | paragraph single => exact inTable_of_mem_items member
  | heading items => exact inTable_of_mem_items member
  | note footnote => exact inTable_of_mem_paragraphs member
  | grid table =>
      obtain ⟨row, -, inRow⟩ := List.mem_flatMap.mp member
      obtain ⟨cell, -, inCell⟩ := List.mem_flatMap.mp inRow
      rcases List.mem_append.mp inCell with inLead | inParagraphs
      · exact inTable_of_mem_items inLead
      · exact inTable_of_mem_paragraphs inParagraphs

/-- Behind the flow that content goes to, nothing is read on the same side. -/
theorem Fits.onSide_after {destination : Destination} {frame : Frame} {after : List Block}
    (fits : Fits destination frame after) :
    onSide (destination == .cell) (after.flatMap Block.signs) = [] := by
  cases destination with
  | body =>
      rw [fits.2]
      rfl
  | head =>
      rw [fits.2]
      rfl
  | note =>
      have placed : ∀ sign ∈ after.flatMap Block.signs, sign.inTable = true := by
        intro sign member
        obtain ⟨block, inAfter, inBlock⟩ := List.mem_flatMap.mp member
        rw [inTable_of_mem_block inBlock]
        exact fits.2 block inAfter
      exact onSide_eq_nil placed (by decide)
  | cell =>
      have placed : ∀ sign ∈ after.flatMap Block.signs, sign.inTable = false := by
        intro sign member
        obtain ⟨block, inAfter, inBlock⟩ := List.mem_flatMap.mp member
        rw [inTable_of_mem_block inBlock]
        have cellless := fits.2 block inAfter
        cases block with
        | grid table =>
            have rows : table.rows = [] := by simpa [Block.isCellless] using cellless
            simp [Block.signs, rows] at inBlock
        | _ => rfl
      exact onSide_eq_nil placed (by decide)

theorem signs_fill (frame : Frame) :
    ∃ front, ∀ items, (frame.fill items).signs =
      front ++ itemSigns frame.kind.isGrid items := by
  cases frame with
  | paragraph alignment => exact ⟨[], fun items => rfl⟩
  | heading => exact ⟨[], fun items => rfl⟩
  | note number earlier alignment =>
      refine ⟨earlier.flatMap (·.signs false), fun items => ?_⟩
      simp [Frame.fill, Block.signs, Paragraph.signs, Frame.kind, Kind.isGrid]
  | cell columns rows row header inner =>
      have opened : ∃ front, ∀ items,
          (inner.fill header items).signs = front ++ itemSigns true items := by
        cases inner with
        | lead => exact ⟨[], fun items => by simp [CellFrame.fill, Cell.signs]⟩
        | paragraph lead earlier alignment =>
            refine ⟨itemSigns true lead ++ earlier.flatMap (·.signs true), fun items => ?_⟩
            simp [CellFrame.fill, Cell.signs, Paragraph.signs]
      obtain ⟨front, inCell⟩ := opened
      refine ⟨rows.flatMap (·.flatMap Cell.signs) ++ row.flatMap Cell.signs ++ front,
        fun items => ?_⟩
      simp [Frame.fill, Block.signs, inCell, Frame.kind, Kind.isGrid]

theorem Fits.isGrid_kind {destination : Destination} {frame : Frame} {after : List Block}
    (fits : Fits destination frame after) : frame.kind.isGrid = (destination == .cell) := by
  cases destination with
  | body =>
      obtain ⟨⟨alignment, rfl⟩, -⟩ := fits
      rfl
  | head =>
      obtain ⟨rfl, -⟩ := fits
      rfl
  | note =>
      obtain ⟨⟨number, earlier, alignment, rfl⟩, -⟩ := fits
      rfl
  | cell =>
      obtain ⟨⟨columns, rows, row, header, inner, rfl⟩, -⟩ := fits
      rfl

theorem flatMap_signs_reach (draft : Draft) :
    draft.reach.1.flatMap Block.signs = draft.blocks.flatMap Block.signs :=
  flatMap_reach rfl rfl draft

theorem itemSigns_append (inTable : Bool) (before after : List Item) :
    itemSigns inTable (before ++ after) = itemSigns inTable before ++ itemSigns inTable after :=
  List.flatMap_append

/-! ### What each kind of line adds -/

/-- What a change adds to the flow that content goes to is read behind everything
else on its side, and changes nothing on the other. -/
theorem Sound.onSide_edit {draft : Draft} (sound : draft.Sound)
    {change : List Item → List Item} {added : List Sign}
    (adds : ∀ frame items after, OpenAt draft.reach.1 draft.reach.2 frame items after →
      itemSigns draft.cursor.inTable (change items) =
        itemSigns draft.cursor.inTable items ++ added)
    (side : Bool) :
    onSide side (draft.edit change).signs = onSide side draft.signs ++ onSide side added := by
  obtain ⟨frame, items, after, opened, fits⟩ := sound.openAt_reach
  obtain ⟨front, filled⟩ := signs_fill frame
  have longer := adds frame items after opened
  have placed : ∀ sign ∈ added, sign.inTable = draft.cursor.inTable := by
    intro sign member
    have inItems : sign ∈ itemSigns draft.cursor.inTable (change items) := by
      rw [longer]
      exact List.mem_append_right _ member
    exact inTable_of_mem_items inItems
  have behind : onSide draft.cursor.inTable (after.flatMap Block.signs) = [] := fits.onSide_after
  obtain ⟨before, split, position⟩ := opened
  have reached : draft.blocks.flatMap Block.signs =
      before.flatMap Block.signs ++ (front ++ itemSigns draft.cursor.inTable items) ++
        after.flatMap Block.signs := by
    rw [← flatMap_signs_reach, split]
    simp [filled, fits.isGrid_kind, cursor, Cursor.inTable]
  have edited : (draft.edit change).blocks.flatMap Block.signs =
      before.flatMap Block.signs ++
        (front ++ (itemSigns draft.cursor.inTable items ++ added)) ++
          after.flatMap Block.signs := by
    rw [blocks_edit, split, ← position, modify_between, modifyItems_fill, ← longer]
    simp [filled, fits.isGrid_kind, cursor, Cursor.inTable]
  have parts : (draft.edit change).parts = draft.parts := rfl
  rw [signs, signs, reached, edited, parts]
  by_cases same : side = draft.cursor.inTable
  · subst same
    simp [behind]
  · simp [onSide_eq_nil placed same]

theorem Sound.onSide_put {draft : Draft} (sound : draft.Sound) (item : Item) (side : Bool) :
    onSide side (draft.put item).signs =
      onSide side draft.signs ++ onSide side (item.signs draft.cursor.inTable) :=
  sound.onSide_edit (fun frame items after opened => by
    rw [itemSigns_append]
    simp [itemSigns]) side

/-- A run inside the open link is read where the link ends, with nothing behind
it but images and anchors. -/
theorem itemSigns_addRun (inTable : Bool) {front back : List Item}
    (silent : ∀ item ∈ back, item.isSilent = true) (address : String) (hint : Option String)
    (runs : List TextRun) (run : TextRun) :
    itemSigns inTable ((front ++ .link address hint runs :: back).modify front.length
        (·.addRun run)) =
      itemSigns inTable (front ++ .link address hint runs :: back) ++ run.signs inTable := by
  have nothing : itemSigns inTable back = [] := by
    rw [itemSigns, List.flatMap_eq_nil_iff]
    intro item member
    cases item with
    | anchor name => rfl
    | image source hint => rfl
    | _ => cases silent _ member
  rw [itemSigns] at nothing
  rw [modify_between]
  simp only [itemSigns, List.flatMap_append, List.flatMap_cons, nothing, List.append_nil]
  simp [Item.addRun, Item.signs]

theorem Sound.itemSigns_link {draft : Draft} (sound : draft.Sound) {link : LinkReference}
    (linked : draft.link = some link) (here : link.block = draft.reach.2) {frame : Frame}
    {items : List Item} {after : List Block}
    (opened : OpenAt draft.reach.1 draft.reach.2 frame items after) (inTable : Bool)
    (run : TextRun) :
    itemSigns inTable (items.modify link.item (·.addRun run)) =
      itemSigns inTable items ++ run.signs inTable := by
  obtain ⟨place, linkAt⟩ := sound.linkAt_reach linked
  obtain ⟨front, address, hint, runs, back, rfl, position, silent, -⟩ :=
    linkAt.items_eq (here ▸ opened.getElem?)
  rw [← position]
  exact itemSigns_addRun inTable silent address hint runs run

theorem Sound.onSide_addRun {draft : Draft} (sound : draft.Sound) (run : TextRun)
    (side : Bool) :
    onSide side (draft.addRun run).signs =
      onSide side draft.signs ++ onSide side (run.signs draft.cursor.inTable) := by
  unfold Draft.addRun
  split
  · exact sound.onSide_put (.text run) side
  · rename_i link linked
    split
    · rename_i here
      exact sound.onSide_edit
        (fun frame items after opened => sound.itemSigns_link linked here opened _ run) side
    · exact sound.onSide_put (.text run) side

theorem cursor_addRun (draft : Draft) (run : TextRun) :
    (draft.addRun run).cursor = draft.cursor := by
  unfold Draft.addRun
  split
  · rfl
  · split <;> rfl

/-- A paragraph opened next to the open flow of a note or a cell is empty. -/
theorem signs_next (frame : Frame) {container : Place}
    (inside : frame.container? = some container) (items : List Item) (alignment : Alignment) :
    ((frame.next items alignment).fill []).signs = (frame.fill items).signs := by
  cases frame with
  | paragraph current => cases inside
  | heading => cases inside
  | note number earlier current =>
      simp [Frame.next, Frame.fill, Block.signs, Paragraph.signs, itemSigns]
  | cell columns rows row header inner =>
      cases inner <;>
        simp [Frame.next, Frame.fill, CellFrame.next, CellFrame.fill, Block.signs, Cell.signs,
          Paragraph.signs, itemSigns]

theorem Sound.signs_newParagraph {draft : Draft} (sound : draft.Sound) (line : Directive) :
    (draft.newParagraph line).signs = draft.signs := by
  have nothing : (Block.paragraph ⟨line.alignment, []⟩).signs = [] := rfl
  have inside {index : Nat} (focus : draft.focus = .note index ∨ draft.focus = .cell index) :
      (draft.blocks.modify index (·.addParagraph line.alignment)).flatMap Block.signs =
        draft.blocks.flatMap Block.signs := by
    obtain ⟨frame, items, after, ⟨before, split, rfl⟩, fits⟩ := sound.focus index focus
    obtain ⟨container, contained⟩ := fits.container (Focus.destination_of_inside focus)
    rw [split, modify_between, addParagraph_fill]
    simp [signs_next frame contained]
  have same (blocks : List Block)
      (unchanged : blocks.flatMap Block.signs = draft.blocks.flatMap Block.signs) :
      Draft.signs { draft.withBlocks blocks with link := none } = draft.signs :=
    congrArg (draft.parts.flatMap Part.signs ++ ·) unchanged
  cases focus : draft.focus with
  | body =>
      simp only [Draft.newParagraph, focus]
      refine same _ ?_
      simp [flatMap_signs_reach, nothing]
  | head =>
      simp only [Draft.newParagraph, focus]
      refine same _ ?_
      simp [nothing]
  | note index =>
      simp only [Draft.newParagraph, focus]
      exact same _ (inside (.inl focus))
  | cell index =>
      simp only [Draft.newParagraph, focus]
      exact same _ (inside (.inr focus))

/-- A new section leaves out what is empty, and is empty itself. -/
theorem signs_newSection (draft : Draft) (line : Directive) :
    (draft.newSection line).signs = draft.signs := by
  have vacant (empty : draft.blocks = []) : Part.signs (.closed draft.current) = [] := by
    rw [signs_closed, show draft.current.blocks = [] from empty]
    rfl
  have current : (draft.newSection line).blocks = [] := rfl
  rw [signs, flatMap_newSection rfl vacant line, current]
  simp [signs, signs_closed, Draft.blocks]

theorem signs_addCell (header : Bool) (block : Block) :
    (block.addCell header).signs = block.signs := by
  have fresh : Cell.signs ⟨header, [], []⟩ = [] := rfl
  cases block with
  | grid table =>
      simp only [Block.addCell, Block.signs, Grid.addCell]
      cases last : table.rows.getLast? with
      | none => simp [List.getLast?_eq_none_iff.mp last, fresh]
      | some row =>
          obtain ⟨earlier, rows⟩ := List.getLast?_eq_some_iff.mp last
          dsimp only
          split
          · simp [fresh]
          · simp [rows, fresh]
  | _ => rfl

theorem signs_openCell {draft next : Draft} {header : Bool}
    (opens : draft.openCell header = .ok next) : next.signs = draft.signs := by
  obtain ⟨index, -, rfl⟩ := openCell_ok opens
  simp [signs, withBlocks, Draft.blocks, List.flatMap_def,
    map_modify_of_keeps (signs_addCell header)]

theorem signs_newTable {draft next : Draft} {line : Directive}
    (declared : draft.newTable line = .ok next) : next.signs = draft.signs := by
  obtain ⟨columns, -, rfl⟩ := newTable_ok declared
  simp [signs, withBlocks, Draft.blocks, Block.signs]

theorem Sound.onSide_openNote {draft : Draft} (sound : draft.Sound) (side : Bool) :
    onSide side draft.openNote.signs =
      onSide side draft.signs ++
        onSide side (numberSigns draft.cursor.inTable draft.nextNote) := by
  have marked := sound.onSide_put (.marker draft.nextNote) side
  have opened : draft.openNote.signs = (draft.put (.marker draft.nextNote)).signs := by
    simp [Draft.openNote, signs, withBlocks, Draft.blocks, Block.signs, Paragraph.signs,
      itemSigns, Draft.put, Draft.edit]
  rw [opened, marked]
  rfl

theorem cursor_openCell {draft next : Draft} {header : Bool}
    (opens : draft.openCell header = .ok next) :
    next.cursor = ⟨.cell, draft.nextNote⟩ := by
  obtain ⟨index, -, rfl⟩ := openCell_ok opens
  rfl

theorem cursor_redirect {draft next : Draft} {line : Directive}
    (kind : line.kind = .destination) (redirects : draft.redirect line = .ok next) :
    next.cursor = draft.cursor.after (.directive line) := by
  cases redirects_of_ok redirects with
  | body target | note target | head target =>
      simp only [Cursor.after, kind, target]
      rfl
  | cell target opens =>
      rw [cursor_openCell opens]
      simp only [Cursor.after, kind, target]
      rfl

/-- A change of destination says nothing, but for the number of a note. -/
theorem Sound.onSide_redirect {draft next : Draft} (sound : draft.Sound) {line : Directive}
    (kind : line.kind = .destination) (redirects : draft.redirect line = .ok next)
    (side : Bool) :
    onSide side next.signs =
      onSide side draft.signs ++ onSide side (draft.cursor.signs (.directive line)) := by
  cases redirects_of_ok redirects with
  | body target => simp [Cursor.signs, target, signs, Draft.blocks]
  | note target =>
      rw [sound.unlinked.onSide_openNote]
      simp [Cursor.signs, kind, target]
      rfl
  | cell target opens =>
      rw [signs_openCell opens]
      simp [Cursor.signs, target, signs, Draft.blocks]
  | head target =>
      simp [Cursor.signs, target, Draft.openHead, signs, signs_closed, Draft.blocks]

theorem cursor_newImage {draft next : Draft} {line : Directive}
    (shown : draft.newImage line = .ok next) : next.cursor = draft.cursor := by
  obtain ⟨source, -, -, rfl⟩ := newImage_ok shown
  rfl

theorem Sound.onSide_newImage {draft next : Draft} (sound : draft.Sound) {line : Directive}
    (shown : draft.newImage line = .ok next) (side : Bool) :
    onSide side next.signs = onSide side draft.signs := by
  have put (source : String) :
      onSide side (draft.put (.image source draft.hint)).signs = onSide side draft.signs := by
    rw [sound.onSide_put]
    simp [Item.signs]
  obtain ⟨source, -, -, rfl⟩ := newImage_ok shown
  exact put source

theorem cursor_newTable {draft next : Draft} {line : Directive}
    (declared : draft.newTable line = .ok next) : next.cursor = draft.cursor := by
  obtain ⟨columns, -, rfl⟩ := newTable_ok declared
  rfl

theorem cursor_obey {draft next : Draft} {line : Directive}
    (obeyed : draft.obey line = .ok next) :
    next.cursor = draft.cursor.after (.directive line) := by
  cases obeys_of_ok obeyed with
  | destination kind redirects => exact cursor_redirect kind redirects
  | image kind shown =>
      simp only [Cursor.after, kind]
      exact cursor_newImage shown
  | table kind declared =>
      simp only [Cursor.after, kind]
      exact cursor_newTable declared
  | newSection kind | newParagraph kind | hint kind | link kind | anchor kind | blob kind =>
      simp only [Cursor.after, kind]
      rfl

theorem Sound.onSide_obey {draft next : Draft} (sound : draft.Sound) {line : Directive}
    (obeyed : draft.obey line = .ok next) (side : Bool) :
    onSide side next.signs =
      onSide side draft.signs ++ onSide side (draft.cursor.signs (.directive line)) := by
  cases obeys_of_ok obeyed with
  | destination kind redirects => exact sound.onSide_redirect kind redirects side
  | image kind shown => simp [Cursor.signs, kind, sound.onSide_newImage shown]
  | table kind declared => simp [Cursor.signs, kind, signs_newTable declared]
  | newSection kind => simp [Cursor.signs, kind, signs_newSection]
  | newParagraph kind => simp [Cursor.signs, kind, sound.signs_newParagraph]
  | link kind =>
      have put := sound.onSide_put (.link line.content.asText draft.hint []) side
      have opened : (draft.newLink line).signs =
          (draft.put (.link line.content.asText draft.hint [])).signs := rfl
      simp [opened, put, Cursor.signs, kind, Item.signs]
  | anchor kind =>
      have put := sound.onSide_put (.anchor line.content.asText) side
      simp [put, Cursor.signs, kind, Item.signs]
  | hint kind | blob kind => simp [Cursor.signs, kind, signs, Draft.blocks]

theorem cursor_step {draft next : Draft} {line : Line} (stepped : draft.step line = .ok next) :
    next.cursor = draft.cursor.after line := by
  have ready : (if line.resets then draft.reset else draft).cursor = draft.cursor := by
    split <;> rfl
  cases line with
  | directive line =>
      rw [← ready]
      exact cursor_obey stepped
  | run run =>
      cases stepped
      rw [cursor_addRun, ready]
      rfl
  | foreign shown => cases stepped

/-- What a line says is read behind everything else on its side. -/
theorem Sound.onSide_step {draft next : Draft} (sound : draft.Sound) {line : Line}
    (stepped : draft.step line = .ok next) (side : Bool) :
    onSide side next.signs =
      onSide side draft.signs ++ onSide side (draft.cursor.signs line) := by
  have sameCursor : (if line.resets then draft.reset else draft).cursor = draft.cursor := by
    split <;> rfl
  have sameSigns : (if line.resets then draft.reset else draft).signs = draft.signs := by
    split <;> rfl
  rw [← sameCursor, ← sameSigns]
  cases line with
  | directive line => exact (sound.ready _).onSide_obey stepped side
  | run run =>
      cases stepped
      exact (sound.ready _).onSide_addRun run side
  | foreign shown => cases stepped

/-- What lines say is read in their order. -/
theorem Sound.onSide_run {draft last : Draft} (sound : draft.Sound) {lines : List Line}
    (ran : draft.run lines = .ok last) (side : Bool) :
    onSide side last.signs =
      onSide side draft.signs ++ onSide side (draft.cursor.signsOf lines) := by
  induction lines generalizing draft with
  | nil =>
      cases ran
      simp [Cursor.signsOf]
  | cons line rest inductionHypothesis =>
      obtain ⟨next, stepped, following⟩ := run_cons_ok ran
      rw [inductionHypothesis (sound.step stepped) following, sound.onSide_step stepped,
        cursor_step stepped, Cursor.signsOf, onSide_append, List.append_assoc]

end Draft

/-- What is read of a rendered page, inside its tables or outside, is what the
lines say whose content went there, in their order and in their styles. -/
theorem renderTree_signs {options : Options} {document : Document} {page : Node}
    (rendered : renderTree options document = .ok page) (inTable : Bool) :
    page.pageSigns.filter (·.inTable == inTable) =
      (Cursor.start.signsOf document.lines).filter (·.inTable == inTable) := by
  obtain ⟨draft, ran, rfl⟩ := Draft.renderTree_ok rendered
  rw [Draft.pageSigns_page]
  exact Draft.sound_start.onSide_run ran inTable

/-- A styled text with a line break, a table cell, and a note opened in the
cell. -/
def noteInCell : Document where
  lines :=
    [.run ⟨"a\r\nb", { RunStyle.plain with bold := true, mono := true }, false⟩,
      .directive { Directive.plain .table with content := .number 1 },
      .directive { Directive.plain .destination with target := .known .cell },
      .run ⟨"c", .plain, false⟩,
      .directive { Directive.plain .destination with target := .known .note },
      .run ⟨"d", .plain, false⟩]
  metadata := []
  showsMetadata := false

theorem renderTree_signs_noteInCell :
    ∃ page, renderTree .standard noteInCell = .ok page ∧
      page.pageSigns.filter (·.inTable == true) =
        [⟨.char 'c', .plain, true⟩, ⟨.char '1', .plain, true⟩] := by
  obtain ⟨page, rendered⟩ : ∃ page, renderTree .standard noteInCell = .ok page := by
    rw [Draft.renderTree_eq_page]
    exact ⟨_, rfl⟩
  exact ⟨page, rendered, (renderTree_signs rendered true).trans (by decide)⟩

end Folio
