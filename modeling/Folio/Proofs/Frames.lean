import Folio.Proofs.Blocks

/-!
# Open flows

Content for a note or a cell goes to the flow in it that was begun last.  A
frame is a block with that flow taken out of it.  Every block with an open flow
is a frame filled with the items of the flow, and the place of the flow in the
markup depends on the frame alone.  That is why searching for the flow again
after each line finds the same element, however long it has grown.
-/

namespace Folio.Draft

open Markup Render

/-- A cell with its open flow taken out: the flow in front of the paragraphs, or
that of the last paragraph. -/
inductive CellFrame where
  | lead
  | paragraph (front : List Item) (earlier : List Paragraph) (alignment : Alignment)
  deriving DecidableEq

/-- A block with its open flow taken out. -/
inductive Frame where
  | paragraph (alignment : Alignment)
  | heading
  /-- A note with the paragraphs in front of the open one. -/
  | note (number : Nat) (earlier : List Paragraph) (alignment : Alignment)
  /-- A table with the rows in front of the last one, and the cells in front of
  the last one there. -/
  | cell (columns : Nat) (rows : List (List Cell)) (row : List Cell) (header : Bool)
      (inner : CellFrame)
  deriving DecidableEq

def CellFrame.fill (header : Bool) : CellFrame → List Item → Cell
  | .lead, items => ⟨header, items, []⟩
  | .paragraph front earlier alignment, items =>
      ⟨header, front, earlier ++ [⟨alignment, items⟩]⟩

/-- A block with a flow put into its frame. -/
def Frame.fill : Frame → List Item → Block
  | .paragraph alignment, items => .paragraph ⟨alignment, items⟩
  | .heading, items => .heading items
  | .note number earlier alignment, items => .note ⟨number, earlier ++ [⟨alignment, items⟩]⟩
  | .cell columns rows row header inner, items =>
      .grid ⟨columns, rows ++ [row ++ [inner.fill header items]]⟩

def CellFrame.place : CellFrame → Place
  | .lead => []
  | .paragraph front earlier _ => [width front + earlier.length]

/-- Where the open flow stands in a block. -/
def Frame.place : Frame → Place
  | .paragraph _ | .heading => []
  | .note _ earlier _ => [earlier.length + 1]
  | .cell _ rows row _ inner => rows.length :: row.length :: inner.place

def CellFrame.base (header : Bool) : CellFrame → Node
  | .lead => Table.newCell header
  | .paragraph _ _ alignment => paragraphBase alignment

def Frame.base : Frame → Node
  | .paragraph alignment | .note _ _ alignment => paragraphBase alignment
  | .heading => headingBase
  | .cell _ _ _ header inner => inner.base header

@[simp]
theorem CellFrame.children_base (header : Bool) (frame : CellFrame) :
    (frame.base header).children = [] := by
  cases frame with
  | lead => rfl
  | paragraph front earlier alignment => exact children_paragraphBase alignment

@[simp]
theorem Frame.children_base (frame : Frame) : frame.base.children = [] := by
  cases frame with
  | paragraph alignment => exact children_paragraphBase alignment
  | heading => rfl
  | note number earlier alignment => exact children_paragraphBase alignment
  | cell columns rows row header inner => exact inner.children_base header

/-! ### The open flow in the markup -/

theorem node_cell_lead (header : Bool) (items : List Item) :
    Cell.node ⟨header, items, []⟩ = flow items (Table.newCell header) := by
  simp only [Cell.node, List.map_nil, List.append_nil]
  cases flow items (Table.newCell header)
  rfl

theorem node_cell_paragraph (header : Bool) (front : List Item) (earlier : List Paragraph) :
    ∃ (outer : Node) (before : List Node),
      before.length = width front + earlier.length ∧
      ∀ last, Cell.node ⟨header, front, earlier ++ [last]⟩ =
        { outer with children := before ++ [last.node] } := by
  refine ⟨flow front (Table.newCell header),
    (flow front (Table.newCell header)).children ++ earlier.map Paragraph.node, ?_, ?_⟩
  · simp [length_children_flow, Table.newCell, Element.new]
  · intro last
    simp [Cell.node]

/-- The last paragraph of a note is its last child, whatever it holds. -/
theorem node_note (number : Nat) (earlier : List Paragraph) :
    ∃ (outer : Node) (before : List Node),
      before.length = earlier.length + 1 ∧
      ∀ last, Footnote.node ⟨number, earlier ++ [last]⟩ =
        { outer with children := before ++ [last.node] } := by
  refine ⟨Element.new () "aside" [], backNode number :: earlier.map Paragraph.node, ?_, ?_⟩
  · simp
  · intro last
    simp [Footnote.node]

theorem node_grid (columns : Nat) (rows : List (List Cell)) (row : List Cell) :
    Grid.node ⟨columns, rows ++ [row]⟩ =
      { Element.new () "table" [] with children := rows.map rowNode ++ [rowNode row] } := by
  simp [Grid.node]

theorem node_row (row : List Cell) (cell : Cell) :
    rowNode (row ++ [cell]) =
      { Element.new () "tr" [] with children := row.map Cell.node ++ [cell.node] } := by
  simp [rowNode]

theorem CellFrame.at?_place (header : Bool) (frame : CellFrame) (items : List Item) :
    (frame.fill header items).node.at? frame.place = some (flow items (frame.base header)) := by
  cases frame with
  | lead => exact congrArg some (node_cell_lead header items)
  | paragraph front earlier alignment =>
      obtain ⟨outer, before, position, node⟩ := node_cell_paragraph header front earlier
      rw [CellFrame.fill, node]
      exact Element.at?_of_split rfl position []

/-- The open flow of a block stands at the place that its frame tells. -/
theorem Frame.at?_place (frame : Frame) (items : List Item) :
    (frame.fill items).node.at? frame.place = some (flow items frame.base) := by
  cases frame with
  | paragraph alignment => rfl
  | heading => rfl
  | note number earlier alignment =>
      obtain ⟨outer, before, position, node⟩ := node_note number earlier
      rw [Frame.fill, Block.node, node]
      exact Element.at?_of_split rfl position []
  | cell columns rows row header inner =>
      rw [Frame.fill, Block.node, node_grid, node_row]
      refine (Element.at?_of_split rfl (List.length_map _) _).trans ?_
      refine (Element.at?_of_split rfl (List.length_map _) _).trans ?_
      exact inner.at?_place header items

theorem CellFrame.modifyAt_place (header : Bool) (frame : CellFrame)
    {items changed : List Item} {change : Node → Node}
    (changes : change (flow items (frame.base header)) = flow changed (frame.base header)) :
    (frame.fill header items).node.modifyAt change frame.place =
      (frame.fill header changed).node := by
  cases frame with
  | lead =>
      simp only [CellFrame.fill, node_cell_lead]
      exact changes
  | paragraph front earlier alignment =>
      obtain ⟨outer, before, position, node⟩ := node_cell_paragraph header front earlier
      rw [CellFrame.fill, CellFrame.fill, node, node, CellFrame.place,
        Element.modifyAt_of_split rfl position]
      exact congrArg (fun last => { outer with children := before ++ [last] }) changes

/-- A change of the element that holds the open flow is a change of the flow. -/
theorem Frame.modifyAt_place (frame : Frame) {items changed : List Item}
    {change : Node → Node} (changes : change (flow items frame.base) = flow changed frame.base) :
    (frame.fill items).node.modifyAt change frame.place = (frame.fill changed).node := by
  cases frame with
  | paragraph alignment => exact changes
  | heading => exact changes
  | note number earlier alignment =>
      obtain ⟨outer, before, position, node⟩ := node_note number earlier
      rw [Frame.fill, Frame.fill, Block.node, Block.node, node, node, Frame.place,
        Element.modifyAt_of_split rfl position]
      exact congrArg (fun last => { outer with children := before ++ [last] }) changes
  | cell columns rows row header inner =>
      have inCell : (inner.fill header items).node.modifyAt change inner.place =
          (inner.fill header changed).node := inner.modifyAt_place header changes
      rw [Frame.fill, Frame.fill, Block.node, Block.node, node_grid, node_grid, node_row,
        node_row, Frame.place, Element.modifyAt_of_split rfl (List.length_map _),
        Element.modifyAt_of_split rfl (List.length_map _), inCell]

/-! ### Where a new paragraph goes -/

/-- The place of the note or cell that a new paragraph next to the open flow
goes into; there is none in a paragraph or heading of the section itself. -/
def Frame.container? : Frame → Option Place
  | .paragraph _ | .heading => none
  | .note _ _ _ => some []
  | .cell _ rows row _ _ => some [rows.length, row.length]

def CellFrame.next : CellFrame → List Item → Alignment → CellFrame
  | .lead, items, alignment => .paragraph items [] alignment
  | .paragraph front earlier current, items, alignment =>
      .paragraph front (earlier ++ [⟨current, items⟩]) alignment

/-- A frame with another paragraph put after its flow, and opened in turn; a
block that is itself a paragraph or heading takes none. -/
def Frame.next : Frame → List Item → Alignment → Frame
  | .note number earlier current, items, alignment =>
      .note number (earlier ++ [⟨current, items⟩]) alignment
  | .cell columns rows row header inner, items, alignment =>
      .cell columns rows row header (inner.next items alignment)
  | frame, _, _ => frame

theorem isTagged_cell (cell : Cell) (tags : List String) (header : "th" ∈ tags)
    (data : "td" ∈ tags) : cell.node.isTagged tags = true := by
  cases shown : cell.header <;> simpa [Element.isTagged, shown]

theorem CellFrame.closest?_place (header : Bool) (frame : CellFrame) (items : List Item) :
    (frame.fill header items).node.closest? Pass.paragraphContainers frame.place = some [] := by
  have tagged : (frame.fill header items).node.isTagged Pass.paragraphContainers = true :=
    isTagged_cell _ _ (by decide) (by decide)
  cases frame with
  | lead => simpa [CellFrame.place, Element.closest?] using tagged
  | paragraph front earlier alignment =>
      obtain ⟨outer, before, position, node⟩ := node_cell_paragraph header front earlier
      rw [CellFrame.fill, node] at tagged ⊢
      refine Element.closest?_self_of_split rfl position ?_ tagged
      simp [Element.closest?, Element.isTagged, Pass.paragraphContainers]

/-- Walking up from the open flow of a block ends at the container that its
frame tells, or leaves the block. -/
theorem Frame.closest?_place (frame : Frame) (items : List Item) :
    (frame.fill items).node.closest? Pass.paragraphContainers frame.place =
      frame.container? := by
  cases frame with
  | paragraph alignment =>
      simp [Frame.fill, Frame.place, Frame.container?, Block.node, Element.closest?,
        Element.isTagged, Pass.paragraphContainers]
  | heading =>
      simp [Frame.fill, Frame.place, Frame.container?, Block.node, Element.closest?,
        Element.isTagged, Pass.paragraphContainers, headingBase, Element.new]
  | note number earlier alignment =>
      obtain ⟨outer, before, position, node⟩ := node_note number earlier
      have tagged : (Footnote.node ⟨number, earlier ++ [⟨alignment, items⟩]⟩).isTagged
          Pass.paragraphContainers = true := rfl
      rw [Frame.fill, Block.node]
      rw [node] at tagged ⊢
      refine Element.closest?_self_of_split rfl position ?_ tagged
      simp [Element.closest?, Element.isTagged, Pass.paragraphContainers]
  | cell columns rows row header inner =>
      rw [Frame.fill, Block.node, node_grid, node_row]
      refine Element.closest?_of_split rfl (List.length_map _) ?_
      refine Element.closest?_of_split rfl (List.length_map _) ?_
      exact inner.closest?_place header items

theorem CellFrame.node_next (header : Bool) (frame : CellFrame) (items : List Item)
    (alignment : Alignment) :
    (frame.fill header items).node.appendChild (paragraphBase alignment) =
      ((frame.next items alignment).fill header []).node := by
  cases frame with
  | lead => simp [CellFrame.fill, CellFrame.next, Cell.node, Element.appendChild, Paragraph.node]
  | paragraph front earlier current =>
      simp [CellFrame.fill, CellFrame.next, Cell.node, Element.appendChild, Paragraph.node]

/-- A paragraph appended to the container next to the open flow is opened
itself. -/
theorem Frame.node_next (frame : Frame) {container : Place}
    (contained : frame.container? = some container) (items : List Item)
    (alignment : Alignment) :
    (frame.fill items).node.modifyAt (·.appendChild (paragraphBase alignment)) container =
      ((frame.next items alignment).fill []).node := by
  cases frame with
  | paragraph current => cases contained
  | heading => cases contained
  | note number earlier current =>
      cases contained
      simp [Frame.fill, Frame.next, Block.node, Footnote.node, Element.modifyAt,
        Element.appendChild, Paragraph.node]
  | cell columns rows row header inner =>
      cases contained
      rw [Frame.fill, Frame.next, Frame.fill, Block.node, Block.node, node_grid, node_grid,
        node_row, node_row, Element.modifyAt_of_split rfl (List.length_map _),
        Element.modifyAt_of_split rfl (List.length_map _), ← inner.node_next]
      rfl

/-! ### Where a search ends -/

theorem lastDescendant?_note (number : Nat) (earlier : List Paragraph)
    (last : Paragraph) :
    (Footnote.node ⟨number, earlier ++ [last]⟩).lastDescendant? (·.isTagged ["p"]) =
      some ([earlier.length + 1], last.node) := by
  obtain ⟨outer, before, position, node⟩ := node_note number earlier
  rw [node]
  refine Element.lastDescendant?_of_split rfl position (by simp) ?_
  refine Element.lastWithin?_self (by simp [Element.isTagged]) ?_
  apply Element.lastDescendant?_eq_none
  intro child member
  exact (isInline_flow (children_paragraphBase _) _ child member).lacks (by decide)

theorem CellFrame.lastDescendant?_eq (header : Bool) (frame : CellFrame) (items : List Item) :
    (((frame.fill header items).node.lastDescendant? (·.isTagged ["aside", "p"])).map
      Prod.fst).getD [] = frame.place := by
  cases frame with
  | lead =>
      have none : (Cell.node ⟨header, items, []⟩).lastDescendant?
          (·.isTagged ["aside", "p"]) = none := by
        apply Element.lastDescendant?_eq_none
        rw [node_cell_lead]
        intro child member
        exact (isInline_flow rfl items child member).lacks (by decide)
      rw [CellFrame.fill, none]
      rfl
  | paragraph front earlier alignment =>
      obtain ⟨outer, before, position, node⟩ := node_cell_paragraph header front earlier
      have last : (Cell.node ⟨header, front, earlier ++ [⟨alignment, items⟩]⟩).lastDescendant?
          (·.isTagged ["aside", "p"]) =
            some ([width front + earlier.length], Paragraph.node ⟨alignment, items⟩) := by
        rw [node]
        refine Element.lastDescendant?_of_split rfl position (by simp) ?_
        refine Element.lastWithin?_self (by simp [Element.isTagged]) ?_
        apply Element.lastDescendant?_eq_none
        intro child member
        exact (isInline_flow (children_paragraphBase _) _ child member).lacks (by decide)
      rw [CellFrame.fill, last]
      rfl

/-- The last cell of a table is the last one of its last row. -/
theorem lastWithin?_grid (columns : Nat) (rows : List (List Cell)) (row : List Cell)
    (cell : Cell) :
    (Grid.node ⟨columns, rows ++ [row ++ [cell]]⟩).lastWithin? (·.isTagged ["th", "td"]) =
      some ([rows.length, row.length], cell.node) := by
  rw [node_grid, node_row]
  apply Element.lastWithin?_of_lastDescendant?
  refine Element.lastDescendant?_of_split rfl (List.length_map _) (by simp) ?_
  apply Element.lastWithin?_of_lastDescendant?
  refine Element.lastDescendant?_of_split rfl (List.length_map _) (by simp) ?_
  refine Element.lastWithin?_self (isTagged_cell _ _ (by decide) (by decide)) ?_
  exact Element.lastDescendant?_eq_none (lacks_below_cell (by decide) cell)

end Folio.Draft
