import Folio.Proofs.Pruning

/-!
# What blocks and elements hold

The items of a block are those of its flows, one flow after the other.  A line
puts items into one flow and leaves the rest in order, so the items of a section
grow by insertion.

The elements of a tree are read in document order.  Among those that pass a test
for anchors, images or notes, the ones inside a block are known from its items:
every item but a text stands for one element, and text adds only line breaks and
formatting.
-/

namespace Folio

open Markup Render

namespace Draft

/-! ### Items of blocks -/

def Cell.items (cell : Cell) : List Item :=
  cell.lead ++ cell.paragraphs.flatMap Paragraph.items

/-- The items of a block in document order. -/
def Block.items : Block → List Item
  | .paragraph single => single.items
  | .heading items => items
  | .grid table => table.rows.flatMap (·.flatMap Cell.items)
  | .note footnote => footnote.paragraphs.flatMap Paragraph.items

theorem items_fill (frame : Frame) :
    ∃ front, ∀ items, (frame.fill items).items = front ++ items := by
  cases frame with
  | paragraph alignment => exact ⟨[], fun items => rfl⟩
  | heading => exact ⟨[], fun items => rfl⟩
  | note number earlier alignment =>
      exact ⟨earlier.flatMap Paragraph.items, fun items => by simp [Frame.fill, Block.items]⟩
  | cell columns rows row header inner =>
      have opened : ∃ front, ∀ items, (inner.fill header items).items = front ++ items := by
        cases inner with
        | lead => exact ⟨[], fun items => by simp [CellFrame.fill, Cell.items]⟩
        | paragraph lead earlier alignment =>
            refine ⟨lead ++ earlier.flatMap Paragraph.items, fun items => ?_⟩
            simp [CellFrame.fill, Cell.items]
      obtain ⟨front, inCell⟩ := opened
      refine ⟨rows.flatMap (·.flatMap Cell.items) ++ row.flatMap Cell.items ++ front,
        fun items => ?_⟩
      simp [Frame.fill, Block.items, inCell]

/-- A paragraph opened next to the open flow of a note or a cell has no items. -/
theorem items_next (frame : Frame) {container : Place}
    (inside : frame.container? = some container) (items : List Item) (alignment : Alignment) :
    ((frame.next items alignment).fill []).items = (frame.fill items).items := by
  cases frame with
  | paragraph current => cases inside
  | heading => cases inside
  | note number earlier current => simp [Frame.next, Frame.fill, Block.items]
  | cell columns rows row header inner =>
      cases inner <;>
        simp [Frame.next, Frame.fill, CellFrame.next, CellFrame.fill, Block.items, Cell.items]

theorem items_addCell (header : Bool) (block : Block) :
    (block.addCell header).items = block.items := by
  cases block with
  | grid table =>
      by_cases full : table.cellCount % table.columns = 0
      · simp [Block.addCell, addCell_full header full, Block.items, Cell.items]
      · obtain ⟨rows, row, split, added⟩ := addCell_begun header full
        simp [Block.addCell, added, Block.items, split, Cell.items]
  | _ => rfl

theorem items_of_vacant {paragraph : Paragraph} (vacant : paragraph.isVacant = true) :
    paragraph.items = [] :=
  List.isEmpty_iff.mp vacant

theorem items_cell_pruned (cell : Cell) : cell.pruned.items = cell.items := by
  rw [Cell.items, Cell.pruned, flatMap_filter_of_nil (fun _ vacant => items_of_vacant vacant)]
  rfl

/-- Pruning leaves the items of a block as they are. -/
theorem items_pruned (block : Block) : block.pruned.items = block.items := by
  cases block with
  | paragraph single => rfl
  | heading items => rfl
  | grid table => simp [Block.pruned, Block.items, Grid.pruned, List.flatMap_map, items_cell_pruned]
  | note footnote =>
      exact flatMap_filter_of_nil (fun _ vacant => items_of_vacant vacant) _

/-! ### What lines do to what is told of blocks -/

section

variable {Told : Type} {tell : Block → List Told} {told : Item → List Told}

variable (filled : ∀ frame : Frame, ∃ front, ∀ items,
  tell (frame.fill items) = front ++ items.flatMap told)
include filled

/-- A change of items that changes nothing told of them changes nothing told of
their block. -/
theorem tell_modifyItems {change : List Item → List Item}
    (keeps : ∀ items, (change items).flatMap told = items.flatMap told) (block : Block) :
    tell (block.modifyItems change) = tell block := by
  unfold Block.modifyItems
  split
  · rfl
  · rename_i frame items opened
    obtain ⟨front, fills⟩ := filled frame
    rw [eq_fill_of_opened? opened, fills, fills, keeps]

theorem flatMap_edit {draft : Draft}
    (reached : draft.reach.1.flatMap tell = draft.blocks.flatMap tell)
    {change : List Item → List Item}
    (keeps : ∀ items, (change items).flatMap told = items.flatMap told) :
    (draft.edit change).blocks.flatMap tell = draft.blocks.flatMap tell := by
  rw [← reached, blocks_edit, List.flatMap_def, List.flatMap_def,
    map_modify_of_keeps (tell_modifyItems filled keeps)]

/-- What is told of an item goes in between when the item is put somewhere. -/
theorem Sound.flatMap_put {draft : Draft} (sound : draft.Sound)
    (reached : draft.reach.1.flatMap tell = draft.blocks.flatMap tell) (item : Item) :
    ∃ before after, draft.blocks.flatMap tell = before ++ after ∧
      (draft.put item).blocks.flatMap tell = before ++ told item ++ after := by
  obtain ⟨frame, items, later, ⟨earlier, split, position⟩, -⟩ := sound.openAt_reach
  obtain ⟨front, fills⟩ := filled frame
  refine ⟨earlier.flatMap tell ++ front ++ items.flatMap told, later.flatMap tell, ?_, ?_⟩
  · rw [← reached, split]
    simp [fills]
  · rw [Draft.put, blocks_edit, split, ← position, modify_between, modifyItems_fill]
    simp [fills]

end

end Draft

end Folio
