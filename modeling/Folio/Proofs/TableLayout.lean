import Folio.Proofs.Conservation
import Folio.Proofs.Filling
import Folio.Proofs.Selection
import Mathlib.Data.List.Forall2

/-!
# Tables as they are declared

The lines of a document say which tables there are: how many columns each one
declares, which cells it takes, and what is written in them.  A cell goes to the
table that was declared last in its section, and what is written while content goes
to cells goes to the cell that was opened last.  A page shows exactly these tables,
in the order of their declaration and with their cells in the order of their lines,
one row filled after the other, whatever notes, paragraphs and images come in
between.
-/

namespace Folio

open Markup Render

/-! ### What lines ask for -/

/-- A cell that a line opens, with what is written in it. -/
structure PlannedCell where
  header : Bool
  signs : List Sign
  deriving DecidableEq

/-- A table that a line declares, with its cells in the order of their lines. -/
structure PlannedTable where
  columns : Except (Failure RenderError) Nat
  cells : List PlannedCell

namespace PlannedTable

def addCell (header : Bool) (table : PlannedTable) : PlannedTable :=
  { table with cells := table.cells ++ [⟨header, []⟩] }

/-- Write something behind what is written in the last cell. -/
def write (signs : List Sign) (table : PlannedTable) : PlannedTable :=
  { table with
    cells :=
      match table.cells.getLast? with
      | none => []
      | some cell => table.cells.dropLast ++ [{ cell with signs := cell.signs ++ signs }] }

/-- Open a cell in the last table. -/
def addCellToLast (header : Bool) (tables : List PlannedTable) : List PlannedTable :=
  match tables.getLast? with
  | none => []
  | some table => tables.dropLast ++ [table.addCell header]

/-- Write into the last table that has any cells, into its last cell. -/
def writeToLast (signs : List Sign) : List PlannedTable → List PlannedTable
  | [] => []
  | table :: rest =>
      if rest.all (·.cells.isEmpty) then table.write signs :: rest
      else table :: writeToLast signs rest

end PlannedTable

open PlannedTable

/-- The tables that some lines ask for: those of earlier sections, and those of the
current one. -/
structure TablePlan where
  earlier : List PlannedTable
  current : List PlannedTable
  cursor : Cursor

namespace TablePlan

def start : TablePlan := ⟨[], [], .start⟩

def tables (plan : TablePlan) : List PlannedTable := plan.earlier ++ plan.current

/-- Nothing can be added to the tables of a section after it. -/
def closing (plan : TablePlan) : TablePlan :=
  { plan with earlier := plan.tables, current := [] }

/-- What a directive does to the tables. -/
def place (plan : TablePlan) (line : Directive) : TablePlan :=
  match line.kind, line.target with
  | .newSection, _ => plan.closing
  | .table, _ => { plan with current := plan.current ++ [⟨Table.columnCount line.content, []⟩] }
  | .destination, .known .cell =>
      { plan with current := addCellToLast line.header plan.current }
  | .destination, .known .head => plan.closing
  | _, _ => plan

def write (plan : TablePlan) (signs : List Sign) : TablePlan :=
  if plan.cursor.inTable then { plan with current := writeToLast signs plan.current } else plan

/-- What a line does to the tables.  It writes before it does anything else. -/
def draw (plan : TablePlan) (line : Line) : TablePlan :=
  let written := plan.write (plan.cursor.signs line)
  match line with
  | .directive directive => written.place directive
  | _ => written

def after (plan : TablePlan) (line : Line) : TablePlan :=
  { plan.draw line with cursor := plan.cursor.after line }

/-- The tables that the lines of a document ask for. -/
def ofLines (lines : List Line) : TablePlan := lines.foldl after start

end TablePlan

/-- The column count that a line declares, if it declares a table. -/
def Line.declaredColumns? : Line → Option (Except (Failure RenderError) Nat)
  | .directive line =>
      if line.kind = .table then some (Table.columnCount line.content) else none
  | _ => none

/-! ### What a page shows -/

/-- An element is a cell as it is asked for. -/
def PlannedCell.Shown (cell : PlannedCell) (element : Node) : Prop :=
  element.tag = (if cell.header then "th" else "td") ∧ element.signs true .plain = cell.signs

/-- A table shows its cells in rows of as many as it has columns, all but the last
of them full. -/
structure ShowsCells (columns : Nat) (cells : List PlannedCell) (table : Node) : Prop where
  rowCount : table.children.length = (cells.length + columns - 1) / columns
  rows : ∀ row ∈ table.children, row.tag = "tr"
  full : ∀ row ∈ table.children.dropLast, row.children.length = columns
  last : ∀ row, table.children.getLast? = some row →
    row.children.length = cells.length - columns * (table.children.length - 1)
  shown : List.Forall₂ PlannedCell.Shown cells (table.children.flatMap Element.children)

/-- A table has a column count and shows its cells in so many columns. -/
def PlannedTable.Shown (planned : PlannedTable) (table : Node) : Prop :=
  ∃ columns, planned.columns = .ok columns ∧ 0 < columns ∧
    ShowsCells columns planned.cells table

namespace Draft

/-! ### Tables of a draft -/

def Cell.planned (cell : Cell) : PlannedCell := ⟨cell.header, cell.signs⟩

def Grid.cells (table : Grid) : List Cell := table.rows.flatten

def Grid.planned (table : Grid) : PlannedTable := ⟨.ok table.columns, table.cells.map Cell.planned⟩

def Block.grid? : Block → Option Grid
  | .grid table => some table
  | _ => none

def planned (blocks : List Block) : List PlannedTable :=
  (blocks.filterMap Block.grid?).map Grid.planned

def Part.planned : Part → List PlannedTable
  | .rule => []
  | .closed part => Draft.planned part.blocks

/-- A draft has the tables of a plan. -/
structure Draws (plan : TablePlan) (draft : Draft) : Prop where
  earlier : plan.earlier = draft.parts.flatMap Part.planned
  current : plan.current = planned draft.blocks

/-- A draft and a plan that are at the same line of a document. -/
structure Follows (plan : TablePlan) (draft : Draft) : Prop extends Draws plan draft where
  cursor : plan.cursor = draft.cursor

theorem planned_append (before after : List Block) :
    planned (before ++ after) = planned before ++ planned after := by
  simp [planned]

theorem planned_cons (block : Block) (after : List Block) :
    planned (block :: after) = (block.grid?.map Grid.planned).toList ++ planned after := by
  cases isGrid : block.grid? <;> simp [planned, isGrid]

theorem planned_cons_grid (table : Grid) (after : List Block) :
    planned (.grid table :: after) = table.planned :: planned after := by
  simp [planned, Block.grid?]

theorem grid?_eq_none {block : Block} (other : block.kind.isGrid = false) :
    block.grid? = none := by
  cases block with
  | grid table => cases other
  | _ => rfl

theorem planned_eq_nil {blocks : List Block}
    (others : ∀ block ∈ blocks, block.kind.isGrid = false) : planned blocks = [] := by
  have none : blocks.filterMap Block.grid? = [] := by
    rw [List.filterMap_eq_nil_iff]
    exact fun block member => grid?_eq_none (others block member)
  rw [planned, none]
  rfl

theorem planned_reach (draft : Draft) : planned draft.reach.1 = planned draft.blocks := by
  obtain ⟨more, reached, others⟩ := reach_eq_append draft
  rw [reached, planned_append, planned_eq_nil others, List.append_nil]

theorem cells_of_cellless {blocks : List Block}
    (cellless : ∀ block ∈ blocks, block.isCellless = true) :
    ∀ table ∈ planned blocks, table.cells = [] := by
  intro table member
  obtain ⟨grid, isGrid, rfl⟩ := List.mem_map.mp member
  obtain ⟨block, inBlocks, same⟩ := List.mem_filterMap.mp isGrid
  cases block with
  | grid other =>
      cases same
      have rows : grid.rows = [] := by simpa [Block.isCellless] using cellless _ inBlocks
      simp [Grid.planned, Grid.cells, rows]
  | _ => cases same

end Draft

/-! ### Writing and adding cells -/

namespace PlannedTable

theorem addCellToLast_concat (header : Bool) (tables : List PlannedTable) (table : PlannedTable) :
    addCellToLast header (tables ++ [table]) = tables ++ [table.addCell header] := by
  simp [addCellToLast]

theorem write_of_cells {table : PlannedTable} {earlier : List PlannedCell} {cell : PlannedCell}
    (cells : table.cells = earlier ++ [cell]) (signs : List Sign) :
    table.write signs =
      { table with cells := earlier ++ [{ cell with signs := cell.signs ++ signs }] } := by
  simp [write, cells]

/-- The table that is written into is followed by tables without cells only. -/
theorem writeToLast_between (signs : List Sign) (before : List PlannedTable)
    {table : PlannedTable} (begun : table.cells ≠ []) {after : List PlannedTable}
    (cellless : ∀ later ∈ after, later.cells = []) :
    writeToLast signs (before ++ table :: after) = before ++ table.write signs :: after := by
  induction before with
  | nil =>
      have empty : after.all (·.cells.isEmpty) = true := by
        rw [List.all_eq_true]
        exact fun later member => by simp [cellless later member]
      simp [writeToLast, empty]
  | cons first rest inductionHypothesis =>
      have later : (rest ++ table :: after).all (·.cells.isEmpty) = false := by
        simp [begun]
      rw [List.cons_append, writeToLast, if_neg (by simp [later]), inductionHypothesis]
      rfl

theorem write_nil (table : PlannedTable) : table.write [] = table := by
  obtain ⟨columns, cells⟩ := table
  rcases List.eq_nil_or_concat cells with rfl | ⟨earlier, cell, rfl⟩
  · rfl
  · simp [write]

theorem writeToLast_nil (tables : List PlannedTable) : writeToLast [] tables = tables := by
  induction tables with
  | nil => rfl
  | cons table rest inductionHypothesis =>
      rw [writeToLast, write_nil, inductionHypothesis, ite_self]

end PlannedTable

namespace Draft

/-! ### What lines do to the tables of a draft -/

theorem planned_cell_fill (header : Bool) (inner : CellFrame) {items edited : List Item}
    {added : List Sign} (longer : itemSigns true edited = itemSigns true items ++ added) :
    (inner.fill header edited).planned =
      { (inner.fill header items).planned with
        signs := (inner.fill header items).planned.signs ++ added } := by
  cases inner with
  | lead => simp [CellFrame.fill, Cell.planned, Cell.signs, longer]
  | paragraph lead earlier alignment =>
      simp [CellFrame.fill, Cell.planned, Cell.signs, Paragraph.signs, longer]

/-- What is added to the open flow of a cell is written into the last cell of the
table. -/
theorem planned_grid_fill (columns : Nat) (rows : List (List Cell)) (row : List Cell)
    (header : Bool) (inner : CellFrame) {items edited : List Item} {added : List Sign}
    (longer : itemSigns true edited = itemSigns true items ++ added) :
    Grid.planned ⟨columns, rows ++ [row ++ [inner.fill header edited]]⟩ =
      (Grid.planned ⟨columns, rows ++ [row ++ [inner.fill header items]]⟩).write added := by
  have cells (cell : Cell) : (Grid.planned ⟨columns, rows ++ [row ++ [cell]]⟩).cells =
      (rows.flatten ++ row).map Cell.planned ++ [cell.planned] := by
    simp [Grid.planned, Grid.cells]
  rw [write_of_cells (cells _), ← planned_cell_fill header inner longer, ← cells]
  rfl

/-- What a change adds to the flow that content goes to is written into the last
cell, provided that content goes to cells. -/
theorem Sound.planned_edit {draft : Draft} (sound : draft.Sound)
    {change : List Item → List Item} {added : List Sign}
    (adds : ∀ frame items after, OpenAt draft.reach.1 draft.reach.2 frame items after →
      itemSigns draft.cursor.inTable (change items) =
        itemSigns draft.cursor.inTable items ++ added) :
    planned (draft.edit change).blocks =
      if draft.cursor.inTable then writeToLast added (planned draft.blocks)
      else planned draft.blocks := by
  obtain ⟨frame, items, after, opened, fits⟩ := sound.openAt_reach
  have longer := adds frame items after opened
  obtain ⟨before, split, position⟩ := opened
  rw [← planned_reach draft, blocks_edit, split, ← position, modify_between, modifyItems_fill]
  cases inTable : draft.cursor.inTable with
  | true =>
      have destination : draft.focus.destination = .cell := by
        simpa [cursor, Cursor.inTable] using inTable
      rw [destination] at fits
      obtain ⟨⟨columns, rows, row, header, inner, rfl⟩, cellless⟩ := fits
      rw [inTable] at longer
      simp only [if_true, planned_append, Frame.fill, planned_cons_grid]
      rw [writeToLast_between added _ (by simp [Grid.planned, Grid.cells])
        (cells_of_cellless cellless), planned_grid_fill columns rows row header inner longer]
  | false =>
      have other (items : List Item) : (frame.fill items).grid? = none := by
        refine grid?_eq_none ?_
        rw [kind_fill, fits.isGrid_kind]
        exact inTable
      simp [planned, other]

theorem Sound.planned_put {draft : Draft} (sound : draft.Sound) (item : Item) :
    planned (draft.put item).blocks =
      if draft.cursor.inTable then
        writeToLast (item.signs draft.cursor.inTable) (planned draft.blocks)
      else planned draft.blocks :=
  sound.planned_edit fun frame items after opened => by
    rw [itemSigns_append]
    simp [itemSigns]

/-- A line that writes nothing leaves the tables as they are. -/
theorem Sound.planned_put_silent {draft : Draft} (sound : draft.Sound) {item : Item}
    (silent : ∀ inTable, item.signs inTable = []) :
    planned (draft.put item).blocks = planned draft.blocks := by
  rw [sound.planned_put, silent, writeToLast_nil, ite_self]

theorem Sound.planned_addRun {draft : Draft} (sound : draft.Sound) (run : TextRun) :
    planned (draft.addRun run).blocks =
      if draft.cursor.inTable then
        writeToLast (run.signs draft.cursor.inTable) (planned draft.blocks)
      else planned draft.blocks := by
  unfold Draft.addRun
  split
  · exact sound.planned_put (.text run)
  · rename_i link linked
    split
    · rename_i here
      exact sound.planned_edit
        fun frame items after opened => sound.itemSigns_link linked here opened _ run
    · exact sound.planned_put (.text run)

theorem cells_addCell (header : Bool) (table : Grid) :
    (table.addCell header).cells = table.cells ++ [⟨header, [], []⟩] := by
  by_cases full : table.cellCount % table.columns = 0
  · simp [addCell_full header full, Grid.cells]
  · obtain ⟨rows, row, split, added⟩ := addCell_begun header full
    simp [added, Grid.cells, split]

theorem planned_addCell (header : Bool) (table : Grid) :
    (table.addCell header).planned = table.planned.addCell header := by
  simp [Grid.planned, cells_addCell, PlannedTable.addCell, Cell.planned, Cell.signs, itemSigns]

theorem Sound.planned_openCell {draft next : Draft} (sound : draft.Sound) {header : Bool}
    (opens : draft.openCell header = .ok next) :
    next.parts = draft.parts ∧
      planned next.blocks = addCellToLast header (planned draft.blocks) := by
  obtain ⟨index, isTable, rfl⟩ := openCell_ok opens
  refine ⟨rfl, ?_⟩
  have last := sound.table
  rw [isTable] at last
  obtain ⟨before, table, after, split, rfl, none⟩ := last.split
  change planned (draft.blocks.modify before.length (·.addCell header)) = _
  rw [split, modify_between, Block.addCell, planned_append, planned_cons_grid,
    planned_eq_nil none, planned_append, planned_cons_grid, planned_eq_nil none,
    addCellToLast_concat, planned_addCell]

theorem planned_newTable {draft next : Draft} {line : Directive}
    (declared : draft.newTable line = .ok next) :
    next.parts = draft.parts ∧
      planned next.blocks = planned draft.blocks ++ [⟨Table.columnCount line.content, []⟩] := by
  obtain ⟨columns, counted, rfl⟩ := newTable_ok declared
  refine ⟨rfl, ?_⟩
  change planned (draft.blocks ++ [.grid ⟨columns, []⟩]) = _
  rw [planned_append, counted]
  rfl

theorem planned_newImage {draft next : Draft} (sound : draft.Sound) {line : Directive}
    (shown : draft.newImage line = .ok next) :
    next.parts = draft.parts ∧ planned next.blocks = planned draft.blocks := by
  obtain ⟨source, -, -, rfl⟩ := newImage_ok shown
  exact ⟨rfl, sound.planned_put_silent fun _ => rfl⟩

/-- A paragraph opened in a cell writes nothing into it. -/
theorem planned_next (frame : Frame) {container : Place}
    (inside : frame.container? = some container) (items : List Item) (alignment : Alignment) :
    ((frame.next items alignment).fill []).grid?.map Grid.planned =
      (frame.fill items).grid?.map Grid.planned := by
  cases frame with
  | paragraph current => cases inside
  | heading => cases inside
  | note number earlier current => rfl
  | cell columns rows row header inner =>
      cases inner <;>
        simp [Frame.next, Frame.fill, CellFrame.next, CellFrame.fill, Block.grid?, Grid.planned,
          Grid.cells, Cell.planned, Cell.signs, Paragraph.signs, itemSigns]

theorem Sound.planned_newParagraph {draft : Draft} (sound : draft.Sound) (line : Directive) :
    planned (draft.newParagraph line).blocks = planned draft.blocks := by
  have nothing : planned [.paragraph ⟨line.alignment, []⟩] = [] := rfl
  have inside {index : Nat} (focus : draft.focus = .note index ∨ draft.focus = .cell index) :
      planned (draft.blocks.modify index (·.addParagraph line.alignment)) =
        planned draft.blocks := by
    obtain ⟨frame, items, after, ⟨before, split, rfl⟩, fits⟩ := sound.focus index focus
    obtain ⟨container, contained⟩ := fits.container (Focus.destination_of_inside focus)
    have same := planned_next frame contained items line.alignment
    rw [split, modify_between, addParagraph_fill]
    simp only [planned_append, planned_cons, same]
  change planned (draft.newParagraph line).current.blocks = _
  unfold Draft.newParagraph
  cases focus : draft.focus with
  | body => simp [withBlocks, planned_append, planned_reach, nothing]
  | head => simp [withBlocks, planned_append, nothing]
  | note index => exact inside (.inl focus)
  | cell index => exact inside (.inr focus)

/-! ### Following a plan -/

theorem TablePlan.write_nil (plan : TablePlan) : plan.write [] = plan := by
  rw [TablePlan.write, writeToLast_nil, ite_self]

theorem Draws.of_same {plan : TablePlan} {draft next : Draft} (draws : Draws plan draft)
    (parts : next.parts = draft.parts) (blocks : planned next.blocks = planned draft.blocks) :
    Draws plan next :=
  ⟨parts ▸ draws.earlier, draws.current.trans blocks.symm⟩

theorem Draws.closing {plan : TablePlan} {draft next : Draft} (draws : Draws plan draft)
    (empty : next.blocks = [])
    (parts : next.parts.flatMap Part.planned =
      (draft.parts ++ [Part.closed draft.current]).flatMap Part.planned) :
    Draws plan.closing next where
  earlier := by
    rw [parts]
    simp [TablePlan.closing, TablePlan.tables, draws.earlier, draws.current, Part.planned,
      Draft.blocks]
  current := by
    rw [empty]
    rfl

theorem Draws.newSection {plan : TablePlan} {draft : Draft} (draws : Draws plan draft)
    (line : Directive) : Draws plan.closing (draft.newSection line) := by
  have vacant (empty : draft.blocks = []) : (Part.closed draft.current).planned = [] :=
    congrArg planned empty
  exact draws.closing rfl (flatMap_newSection rfl vacant line)

/-- What content is written under the destination of cells, and nothing else. -/
theorem Follows.write {plan : TablePlan} {draft next : Draft} (follows : Follows plan draft)
    {signs : List Sign} (parts : next.parts = draft.parts)
    (blocks : planned next.blocks =
      if draft.cursor.inTable then writeToLast signs (planned draft.blocks)
      else planned draft.blocks) : Draws (plan.write signs) next := by
  rw [TablePlan.write, follows.cursor]
  split at blocks
  · rename_i inTable
    rw [if_pos inTable]
    exact ⟨parts ▸ follows.earlier, by rw [blocks, follows.current]⟩
  · rename_i elsewhere
    rw [if_neg elsewhere]
    exact follows.toDraws.of_same parts blocks

theorem Follows.openNote {plan : TablePlan} {draft : Draft} (follows : Follows plan draft)
    (sound : draft.Sound) :
    Draws (plan.write (numberSigns plan.cursor.inTable plan.cursor.nextNote)) draft.openNote := by
  have put := sound.planned_put (.marker draft.nextNote)
  have opened : draft.openNote.blocks = (draft.put (.marker draft.nextNote)).blocks ++
      [.note ⟨draft.nextNote, [⟨.unset, []⟩]⟩] := rfl
  refine follows.write rfl ?_
  rw [opened, planned_append, put, follows.cursor]
  exact List.append_nil _

theorem draw_of_silent {plan : TablePlan} {line : Directive}
    (silent : plan.cursor.signs (.directive line) = []) :
    plan.draw (.directive line) = plan.place line := by
  rw [TablePlan.draw, silent, TablePlan.write_nil]

theorem Follows.redirect {plan : TablePlan} {draft next : Draft} (follows : Follows plan draft)
    (sound : draft.Sound) {line : Directive} (kind : line.kind = .destination)
    (redirects : draft.redirect line = .ok next) :
    Draws (plan.draw (.directive line)) next := by
  have unlinked : Follows plan { draft with link := none } :=
    ⟨⟨follows.earlier, follows.current⟩, follows.cursor⟩
  cases redirects_of_ok redirects with
  | body target =>
      rw [draw_of_silent (by simp [Cursor.signs, target])]
      simp only [TablePlan.place, kind, target]
      exact follows.toDraws.of_same rfl rfl
  | note target =>
      have noted := unlinked.openNote sound.unlinked
      simp only [TablePlan.draw, Cursor.signs, TablePlan.place, kind, target, and_self, if_true]
      exact noted
  | cell target opens =>
      obtain ⟨parts, blocks⟩ := sound.unlinked.planned_openCell opens
      rw [draw_of_silent (by simp [Cursor.signs, target])]
      simp only [TablePlan.place, kind, target]
      exact ⟨parts ▸ follows.earlier, by rw [blocks, follows.current]; rfl⟩
  | head target =>
      rw [draw_of_silent (by simp [Cursor.signs, target])]
      simp only [TablePlan.place, kind, target]
      exact follows.toDraws.closing rfl rfl

theorem Follows.obey {plan : TablePlan} {draft next : Draft} (follows : Follows plan draft)
    (sound : draft.Sound) {line : Directive} (obeyed : draft.obey line = .ok next) :
    Draws (plan.draw (.directive line)) next := by
  have silent (other : line.kind ≠ .destination) :
      plan.draw (.directive line) = plan.place line :=
    draw_of_silent (by simp [Cursor.signs, other])
  cases obeys_of_ok obeyed with
  | destination kind redirects => exact follows.redirect sound kind redirects
  | newSection kind =>
      rw [silent (by simp [kind])]
      simp only [TablePlan.place, kind]
      exact follows.toDraws.newSection line
  | newParagraph kind =>
      rw [silent (by simp [kind])]
      simp only [TablePlan.place, kind]
      exact follows.toDraws.of_same rfl (sound.planned_newParagraph line)
  | hint kind | blob kind =>
      rw [silent (by simp [kind])]
      simp only [TablePlan.place, kind]
      exact follows.toDraws.of_same rfl rfl
  | link kind | anchor kind =>
      rw [silent (by simp [kind])]
      simp only [TablePlan.place, kind]
      exact follows.toDraws.of_same rfl (sound.planned_put_silent fun _ => rfl)
  | image kind shown =>
      rw [silent (by simp [kind])]
      simp only [TablePlan.place, kind]
      obtain ⟨parts, blocks⟩ := planned_newImage sound shown
      exact follows.toDraws.of_same parts blocks
  | table kind declared =>
      rw [silent (by simp [kind])]
      simp only [TablePlan.place, kind]
      obtain ⟨parts, blocks⟩ := planned_newTable declared
      exact ⟨parts ▸ follows.earlier, by rw [blocks, follows.current]⟩

theorem parts_addRun (draft : Draft) (run : TextRun) : (draft.addRun run).parts = draft.parts := by
  unfold Draft.addRun
  split
  · rfl
  · split <;> rfl

theorem Follows.step {plan : TablePlan} {draft next : Draft} (follows : Follows plan draft)
    (sound : draft.Sound) {line : Line} (stepped : draft.step line = .ok next) :
    Follows (plan.after line) next := by
  have ready : Follows plan (if line.resets then draft.reset else draft) := by
    split
    · exact ⟨⟨follows.earlier, follows.current⟩, follows.cursor⟩
    · exact follows
  have readySound := sound.ready line.resets
  have drawn : Draws (plan.draw line) next := by
    cases line with
    | directive line => exact ready.obey readySound stepped
    | run run =>
        cases stepped
        have written := readySound.planned_addRun run
        rw [← ready.cursor] at written
        exact ready.write (parts_addRun _ run) (ready.cursor ▸ written)
    | foreign shown => cases stepped
  exact ⟨⟨drawn.earlier, drawn.current⟩, by rw [cursor_step stepped, ← follows.cursor]; rfl⟩

theorem follows_start : Follows .start start := ⟨⟨rfl, rfl⟩, rfl⟩

/-- Drafts have the tables that their lines ask for. -/
theorem Follows.run {plan : TablePlan} {draft last : Draft} (follows : Follows plan draft)
    (sound : draft.Sound) {lines : List Line} (ran : draft.run lines = .ok last) :
    Follows (lines.foldl TablePlan.after plan) last := by
  induction lines generalizing plan draft with
  | nil =>
      cases ran
      exact follows
  | cons line rest inductionHypothesis =>
      obtain ⟨next, stepped, following⟩ := run_cons_ok ran
      exact inductionHypothesis (follows.step sound stepped) (sound.step stepped) following

/-! ### Tables in the markup -/

theorem filter_elements_of_lacks {tags : List String} {element : Node}
    (lacks : Element.Lacks tags element) : element.elements.filter (·.isTagged tags) = [] := by
  rw [Element.elements, List.filter_map]
  exact congrArg (List.map Prod.snd) lacks.filter_walk

/-- The tables of a tree in document order. -/
def tablesOf (element : Node) : List Node := element.elements.filter (·.isTagged ["table"])

theorem tablesOf_of_untagged {element : Node} (untagged : element.isTagged ["table"] = false) :
    tablesOf element = element.children.flatMap tablesOf := by
  rw [tablesOf, Element.elements_eq, List.filter_cons_of_neg (by simp [untagged]),
    List.filter_flatMap]
  rfl

theorem flatMap_tablesOf_eq_nil {elements : List Node}
    (lack : ∀ element ∈ elements, Element.Lacks ["table"] element) :
    elements.flatMap tablesOf = [] := by
  rw [List.flatMap_eq_nil_iff]
  exact fun element member => filter_elements_of_lacks (lack element member)

theorem tablesOf_block (block : Block) :
    tablesOf block.node = block.grid?.toList.map Grid.node := by
  cases block with
  | paragraph single => exact filter_elements_of_lacks (lacks_paragraph (by decide) single)
  | heading items => exact filter_elements_of_lacks (lacks_heading (by decide) items)
  | note footnote => exact filter_elements_of_lacks (lacks_note (by decide) footnote)
  | grid table =>
      have isTable : table.node.isTagged ["table"] = true := rfl
      have rows : table.node.children.flatMap tablesOf = [] := by
        refine flatMap_tablesOf_eq_nil fun child member => ?_
        obtain ⟨row, _, rfl⟩ := List.mem_map.mp member
        exact lacks_row (by decide) row
      rw [Block.node, tablesOf, Element.elements_eq, List.filter_cons_of_pos isTable,
        List.filter_flatMap]
      exact congrArg (table.node :: ·) rows

def Part.grids : Part → List Grid
  | .rule => []
  | .closed part => part.blocks.filterMap Block.grid?

theorem tablesOf_part (part : Part) : tablesOf part.node = part.grids.map Grid.node := by
  cases part with
  | rule => rfl
  | closed part =>
      have untagged : part.node.isTagged ["table"] = false := by simp [Element.isTagged]
      rw [Part.node, tablesOf_of_untagged untagged, children_section, List.flatMap_map]
      simp only [tablesOf_block]
      rw [Part.grids, List.filterMap_eq_flatMap_toList, List.map_flatMap]

theorem tablesOf_page (options : Options) (document : Document) (draft : Draft) :
    tablesOf (page options document draft) = (draft.kept.flatMap Part.grids).map Grid.node := by
  have head : tablesOf (Page.head options.stylesheets document) = [] :=
    filter_elements_of_lacks (lacks_head (by decide) options.stylesheets document)
  have title : (titleHeading options document).flatMap tablesOf = [] :=
    flatMap_tablesOf_eq_nil fun child member =>
      lacks_titleHeading (by decide) options document child member
  have parts : tablesOf (body options document draft) =
      (draft.kept.flatMap Part.grids).map Grid.node := by
    rw [tablesOf_of_untagged (by simp [Element.isTagged]), body, List.flatMap_append, title,
      List.nil_append, List.flatMap_map, List.map_flatMap]
    simp only [tablesOf_part]
  rw [page, assemble, tablesOf_of_untagged rfl]
  simp [head, parts]

theorem planned_cell_pruned (cell : Cell) : cell.pruned.planned = cell.planned := by
  rw [Cell.planned, signs_cell_pruned]
  rfl

theorem planned_grid_pruned (table : Grid) : table.pruned.planned = table.planned := by
  have cells : table.pruned.cells = table.cells.map Cell.pruned := by
    simp [Grid.cells, Grid.pruned, List.map_flatten]
  rw [Grid.planned, cells, List.map_map]
  simp [Grid.planned, Function.comp_def, planned_cell_pruned, Grid.pruned]

theorem grid?_pruned (block : Block) : block.pruned.grid? = block.grid?.map Grid.pruned := by
  cases block <;> rfl

theorem grids_eq_told : Part.grids = Part.told fun block => block.grid?.toList := by
  funext part
  cases part with
  | rule => rfl
  | closed part => exact List.filterMap_eq_flatMap_toList Block.grid? part.blocks

theorem grids_kept (draft : Draft) :
    draft.kept.flatMap Part.grids =
      ((draft.parts ++ [Part.closed draft.current]).flatMap Part.grids).map Grid.pruned := by
  have silent (block : Block) (vacant : block.isVacant = true) : block.grid?.toList = [] := by
    cases block with
    | grid table => cases vacant
    | _ => rfl
  have pruned (block : Block) :
      block.pruned.grid?.toList = block.grid?.toList.map Grid.pruned := by
    rw [grid?_pruned, Option.toList_map]
  rw [grids_eq_told, flatMap_told_kept silent pruned]

/-- The tables of a plan are those of the page. -/
theorem Follows.tables {plan : TablePlan} {draft : Draft} (follows : Follows plan draft) :
    plan.tables = (draft.kept.flatMap Part.grids).map Grid.planned := by
  have planned_part : Part.planned = fun part => part.grids.map Grid.planned := by
    funext part
    cases part <;> rfl
  have current : plan.current = (Part.closed draft.current).planned := follows.current
  rw [grids_kept, List.map_map, TablePlan.tables, follows.earlier, current]
  simp [List.map_flatMap, Function.comp_def, planned_grid_pruned, planned_part]

/-- A table whose rows are filled one after the other shows its cells so. -/
theorem Grid.Laid.shown {table : Grid} (laid : table.Laid) : table.planned.Shown table.node := by
  have count : table.cells.length = table.cellCount := rfl
  have rows : table.node.children = table.rows.map rowNode := rfl
  have rowCount : table.rows.length = (rowLengths table.columns table.cellCount).length := by
    rw [← laid.lengths, List.length_map]
  have length (row : List Cell) : (rowNode row).children.length = row.length := by
    simp [rowNode]
  refine ⟨table.columns, rfl, laid.positive, ?_, ?_, ?_, ?_, ?_⟩
  · rw [rows, List.length_map, rowCount, length_rowLengths laid.positive]
    simp [Grid.planned, count]
  · intro element member
    obtain ⟨row, -, rfl⟩ := List.mem_map.mp member
    rfl
  · intro element member
    rw [rows, ← List.map_dropLast] at member
    obtain ⟨row, inRows, rfl⟩ := List.mem_map.mp member
    have inLengths : row.length ∈ (rowLengths table.columns table.cellCount).dropLast := by
      rw [← laid.lengths, ← List.map_dropLast]
      exact List.mem_map_of_mem inRows
    exact (length row).trans (eq_of_mem_dropLast_rowLengths inLengths)
  · intro element last
    rw [rows, List.getLast?_map, Option.map_eq_some_iff] at last
    obtain ⟨row, isLast, rfl⟩ := last
    have ends : (rowLengths table.columns table.cellCount).getLast? = some row.length := by
      rw [← laid.lengths, List.getLast?_map, isLast]
      rfl
    rw [length, eq_of_getLast?_rowLengths ends, rows, List.length_map, rowCount]
    simp [Grid.planned, count]
  · have cells : table.node.children.flatMap Element.children = table.cells.map Cell.node := by
      rw [rows, List.flatMap_map, Grid.cells, List.map_flatten]
      rfl
    rw [cells, Grid.planned, List.forall₂_map_left_iff, List.forall₂_map_right_iff,
      List.forall₂_same]
    intro cell _
    exact ⟨tag_cell cell, signs_cell cell⟩

theorem laid_of_mem_kept {draft : Draft} (everywhere : draft.Everywhere Block.Laid) {table : Grid}
    (member : table ∈ draft.kept.flatMap Part.grids) : table.Laid := by
  rw [grids_kept] at member
  obtain ⟨unpruned, inParts, rfl⟩ := List.mem_map.mp member
  obtain ⟨part, isPart, inPart⟩ := List.mem_flatMap.mp inParts
  have laid : (Block.grid unpruned).Laid := by
    cases part with
    | rule => cases inPart
    | closed part =>
        obtain ⟨block, inBlocks, isGrid⟩ := List.mem_filterMap.mp inPart
        cases block with
        | grid table =>
            cases isGrid
            exact everywhere.closing part isPart _ inBlocks
        | _ => cases isGrid
  have same : (Block.grid unpruned.pruned).shape = (Block.grid unpruned).shape := by
    simp [Block.shape, Grid.pruned, Function.comp_def]
  exact laid_of_shape same laid

end Draft

/-! ### One table for each line that declares one -/

namespace PlannedTable

theorem map_columns_addCellToLast (header : Bool) (tables : List PlannedTable) :
    (addCellToLast header tables).map columns = tables.map columns := by
  rcases List.eq_nil_or_concat tables with rfl | ⟨earlier, last, rfl⟩
  · rfl
  · simp [addCellToLast, addCell]

theorem map_columns_writeToLast (signs : List Sign) (tables : List PlannedTable) :
    (writeToLast signs tables).map columns = tables.map columns := by
  induction tables with
  | nil => rfl
  | cons table rest inductionHypothesis =>
      rw [writeToLast]
      split
      · rfl
      · rw [List.map_cons, List.map_cons, inductionHypothesis]

end PlannedTable

namespace TablePlan

theorem map_columns_write (plan : TablePlan) (signs : List Sign) :
    (plan.write signs).tables.map PlannedTable.columns =
      plan.tables.map PlannedTable.columns := by
  unfold write
  split
  · simp [tables, map_columns_writeToLast]
  · rfl

theorem map_columns_place (plan : TablePlan) (line : Directive) :
    (plan.place line).tables.map PlannedTable.columns =
      plan.tables.map PlannedTable.columns ++ (Line.directive line).declaredColumns?.toList := by
  have closed : plan.closing.tables = plan.tables := List.append_nil _
  unfold place
  split
  · rename_i kind
    simp [Line.declaredColumns?, kind, closed]
  · rename_i kind
    simp [Line.declaredColumns?, kind, tables]
  · rename_i kind target
    simp [Line.declaredColumns?, kind, tables, map_columns_addCellToLast]
  · rename_i kind target
    simp [Line.declaredColumns?, kind, closed]
  · rename_i target kind other _ _
    have undeclared : line.kind ≠ .table := fun kind => other kind
    simp [Line.declaredColumns?, undeclared]

theorem map_columns_after (plan : TablePlan) (line : Line) :
    (plan.after line).tables.map PlannedTable.columns =
      plan.tables.map PlannedTable.columns ++ line.declaredColumns?.toList := by
  have drawn : (plan.after line).tables = (plan.draw line).tables := rfl
  rw [drawn]
  cases line with
  | directive directive =>
      rw [← map_columns_write plan (plan.cursor.signs (.directive directive))]
      exact map_columns_place _ directive
  | run run => exact (map_columns_write plan _).trans (List.append_nil _).symm
  | foreign shown => exact (map_columns_write plan _).trans (List.append_nil _).symm

/-- A plan has one table for each line that declares one, in their order. -/
theorem map_columns_ofLines (lines : List Line) :
    (ofLines lines).tables.map PlannedTable.columns = lines.filterMap Line.declaredColumns? := by
  have from_plan (plan : TablePlan) :
      (lines.foldl after plan).tables.map PlannedTable.columns =
        plan.tables.map PlannedTable.columns ++ lines.filterMap Line.declaredColumns? := by
    induction lines generalizing plan with
    | nil => simp
    | cons line rest inductionHypothesis =>
        rw [List.foldl_cons, inductionHypothesis, map_columns_after,
          List.filterMap_eq_flatMap_toList, List.filterMap_eq_flatMap_toList, List.flatMap_cons,
          List.append_assoc]
  exact from_plan start

end TablePlan

open Draft

/-- The tables of a rendered page are those that its lines declare, in their order.
Each shows the cells that lines open while it is the last table of the current
section, in the order of these lines and with what is written in them, in rows of as
many as it declares columns. -/
theorem renderTree_tables {options : Options} {document : Document} {page : Node}
    (rendered : renderTree options document = .ok page) :
    (TablePlan.ofLines document.lines).tables.map PlannedTable.columns =
        document.lines.filterMap Line.declaredColumns? ∧
      List.Forall₂ PlannedTable.Shown (TablePlan.ofLines document.lines).tables
        (page.elements.filter (·.isTagged ["table"])) := by
  refine ⟨TablePlan.map_columns_ofLines document.lines, ?_⟩
  obtain ⟨draft, ran, rfl⟩ := renderTree_ok rendered
  have follows := follows_start.run sound_start ran
  have tables : (TablePlan.ofLines document.lines).tables =
      (draft.kept.flatMap Part.grids).map Grid.planned := follows.tables
  have shown := tablesOf_page options document draft
  rw [tablesOf] at shown
  rw [tables, shown, List.forall₂_map_left_iff, List.forall₂_map_right_iff, List.forall₂_same]
  exact fun table member => (laid_of_mem_kept (laid_of_run ran) member).shown

/-- A table of two columns with three cells, a note opened in the first of them, and
a table without cells. -/
def twoTables : Document where
  lines :=
    [.directive { Directive.plain .table with content := .number 2 },
      .directive { Directive.plain .destination with target := .known .cell, header := true },
      .run ⟨"a", .plain, false⟩,
      .directive { Directive.plain .destination with target := .known .note },
      .run ⟨"b", .plain, false⟩,
      .directive { Directive.plain .destination with target := .known .cell },
      .directive { Directive.plain .destination with target := .known .cell },
      .directive { Directive.plain .table with content := .number 1 },
      .run ⟨"c", .plain, false⟩]
  metadata := []
  showsMetadata := false

theorem renderTree_tables_twoTables :
    ∃ page, renderTree .standard twoTables = .ok page ∧
      List.Forall₂ PlannedTable.Shown
        [⟨.ok 2, [⟨true, [⟨.char 'a', .plain, true⟩, ⟨.char '1', .plain, true⟩]⟩, ⟨false, []⟩,
          ⟨false, [⟨.char 'c', .plain, true⟩]⟩]⟩, ⟨.ok 1, []⟩]
        (page.elements.filter (·.isTagged ["table"])) := by
  obtain ⟨page, rendered⟩ : ∃ page, renderTree .standard twoTables = .ok page := by
    rw [Draft.renderTree_eq_page]
    exact ⟨_, rfl⟩
  exact ⟨page, rendered, (renderTree_tables rendered).2⟩

end Folio
