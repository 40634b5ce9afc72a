import Folio.Proofs.Soundness

/-!
# Resolution agrees with the references of a draft

The destination of content is found by searching the current section.  When the
section stands for the blocks of a sound draft, the search ends at the flow that
the draft refers to: blocks after an open note are tables, which hold no note,
and blocks after the table with the open cell hold no cell.
-/

namespace Folio.Draft

open Markup Render

theorem lacks_aside_of_grid {block : Block} (grid : block.kind.isGrid = true) :
    Element.Lacks ["aside"] block.node := by
  cases block with
  | grid table => exact lacks_grid (by decide) table
  | _ => cases grid

theorem lacks_cell_of_cellless {block : Block} (cellless : block.isCellless = true) :
    Element.Lacks ["th", "td"] block.node := by
  cases block with
  | paragraph single => exact lacks_paragraph (by decide) single
  | heading items => exact lacks_heading (by decide) items
  | note footnote => exact lacks_note (by decide) footnote
  | grid table =>
      have rows : table.rows = [] := by simpa [Block.isCellless] using cellless
      refine .intro rfl ?_
      simp [Block.node, Grid.node, rows]

theorem OpenAt.children {part : Section} {index : Nat} {frame : Frame} {items : List Item}
    {after : List Block} (opened : OpenAt part.blocks index frame items after) :
    ∃ before, part.node.children =
        before ++ (frame.fill items).node :: after.map Block.node ∧ before.length = index := by
  obtain ⟨before, split, position⟩ := opened
  exact ⟨before.map Block.node, by simp [split], by simpa using position⟩

theorem lastChild?_section (part : Section) :
    part.node.lastChild? (fun _ => true) =
      part.blocks.getLast?.map fun block => (part.blocks.length - 1, block.node) := by
  rcases List.eq_nil_or_concat part.blocks with empty | ⟨earlier, last, split⟩
  · rw [Element.lastChild?_eq_none (by simp [empty]), empty]
    rfl
  · rw [List.concat_eq_append] at split
    have children : part.node.children = earlier.map Block.node ++ last.node :: [] := by
      simp [split]
    rw [Element.lastChild?_of_split children (List.length_map _) rfl (by simp), split]
    simp

theorem section_appendChild (part : Section) (block : Block) :
    part.node.appendChild block.node =
      Section.node { part with blocks := part.blocks ++ [block] } := by
  simp [Section.node, Element.appendChild]

/-- Running text goes to the last block if that is a paragraph, a heading to the
last block if that is a heading; otherwise a new block is made. -/
theorem lastOrNew_section (part : Section) {tag : String} (fresh : Block)
    (isFresh : fresh.node = .new () tag []) :
    lastOrNew tag part.node =
      match part.blocks.getLast? with
      | some block =>
          if block.tag = tag then (part.node, [part.blocks.length - 1])
          else (Section.node { part with blocks := part.blocks ++ [fresh] },
            [part.blocks.length])
      | none => (Section.node { part with blocks := part.blocks ++ [fresh] },
          [part.blocks.length]) := by
  have appended : part.node.appendAt [] (.new () tag []) =
      (Section.node { part with blocks := part.blocks ++ [fresh] }, [part.blocks.length]) := by
    rw [← section_appendChild, ← isFresh]
    simp [Element.appendAt, Element.at?, Element.modifyAt]
  rw [lastOrNew, lastChild?_section]
  cases part.blocks.getLast? with
  | none => exact appended
  | some block => simp [appended]

/-- The open note is the last one of its section. -/
theorem OpenAt.lastDescendant?_note {part : Section} {index number : Nat}
    {earlier : List Paragraph} {alignment : Alignment} {items : List Item} {after : List Block}
    (opened : OpenAt part.blocks index (.note number earlier alignment) items after)
    (grids : ∀ block ∈ after, block.kind.isGrid = true) :
    part.node.lastDescendant? (·.isTagged ["aside"]) =
      some ([index], Footnote.node ⟨number, earlier ++ [⟨alignment, items⟩]⟩) := by
  obtain ⟨before, split, position⟩ := opened.children
  refine Element.lastDescendant?_of_split split position ?_ ?_
  · intro sibling member
    obtain ⟨block, inAfter, rfl⟩ := List.mem_map.mp member
    exact lacks_aside_of_grid (grids block inAfter)
  · exact Element.lastWithin?_self rfl
      (Element.lastDescendant?_eq_none (lacks_below_note (by decide) _))

/-- The open cell is the last one of its section. -/
theorem OpenAt.lastDescendant?_cell {part : Section} {index columns : Nat}
    {rows : List (List Cell)} {row : List Cell} {header : Bool} {inner : CellFrame}
    {items : List Item} {after : List Block}
    (opened : OpenAt part.blocks index (.cell columns rows row header inner) items after)
    (cellless : ∀ block ∈ after, block.isCellless = true) :
    part.node.lastDescendant? (·.isTagged ["th", "td"]) =
      some ([index, rows.length, row.length], (inner.fill header items).node) := by
  obtain ⟨before, split, position⟩ := opened.children
  refine Element.lastDescendant?_of_split split position ?_ ?_
  · intro sibling member
    obtain ⟨block, inAfter, rfl⟩ := List.mem_map.mp member
    exact lacks_cell_of_cellless (cellless block inAfter)
  · exact lastWithin?_grid columns rows row (inner.fill header items)

/-- The search for the open note ends at it. -/
theorem notePlace?_section {part : Section} {index number : Nat} {earlier : List Paragraph}
    {alignment : Alignment} {items : List Item} {after : List Block}
    (opened : OpenAt part.blocks index (.note number earlier alignment) items after)
    (grids : ∀ block ∈ after, block.kind.isGrid = true) :
    notePlace? part.node = some [index, earlier.length + 1] := by
  simp [notePlace?, opened.lastDescendant?_note grids, lastDescendant?_note]

/-- The search for the open cell ends at its open flow. -/
theorem cellPlace?_section {part : Section} {index columns : Nat} {rows : List (List Cell)}
    {row : List Cell} {header : Bool} {inner : CellFrame} {items : List Item}
    {after : List Block}
    (opened : OpenAt part.blocks index (.cell columns rows row header inner) items after)
    (cellless : ∀ block ∈ after, block.isCellless = true) :
    cellPlace? part.node = some (index :: rows.length :: row.length :: inner.place) := by
  simp [cellPlace?, opened.lastDescendant?_cell cellless, inner.lastDescendant?_eq]

/-- Content is attached where the draft refers to. -/
theorem Sound.resolve_reach {draft : Draft} (sound : draft.Sound) :
    ∃ frame items after, OpenAt draft.reach.1 draft.reach.2 frame items after ∧
      Fits draft.focus.destination frame after ∧
      Render.resolve draft.current.node draft.focus.destination =
        .ok ((draft.withBlocks draft.reach.1).current.node,
          draft.reach.2 :: frame.place) := by
  obtain ⟨frame, items, after, opened, fits⟩ := sound.openAt_reach
  refine ⟨frame, items, after, opened, fits, ?_⟩
  cases focus : draft.focus with
  | body =>
      simp only [focus, Focus.destination, Fits] at fits
      obtain ⟨⟨alignment, rfl⟩, -⟩ := fits
      rw [Focus.destination, Render.resolve,
        lastOrNew_section draft.current (.paragraph ⟨.unset, []⟩) rfl]
      simp only [reach, focus, Draft.blocks]
      cases last : draft.current.blocks.getLast? with
      | none => rfl
      | some block => cases block <;> rfl
  | head =>
      simp only [focus, Focus.destination, Fits] at fits
      obtain ⟨rfl, -⟩ := fits
      rw [Focus.destination, Render.resolve, lastOrNew_section draft.current (.heading []) rfl]
      simp only [reach, focus, Draft.blocks]
      cases last : draft.current.blocks.getLast? with
      | none => rfl
      | some block => cases block <;> rfl
  | note index =>
      simp only [focus, Focus.destination, Fits] at fits
      obtain ⟨⟨number, earlier, alignment, rfl⟩, grids⟩ := fits
      simp only [reach, focus] at opened ⊢
      rw [Focus.destination, Render.resolve, notePlace?_section opened grids]
      rfl
  | cell index =>
      simp only [focus, Focus.destination, Fits] at fits
      obtain ⟨⟨columns, rows, row, header, inner, rfl⟩, cellless⟩ := fits
      simp only [reach, focus] at opened ⊢
      rw [Focus.destination, Render.resolve, cellPlace?_section opened cellless]
      rfl

end Folio.Draft
