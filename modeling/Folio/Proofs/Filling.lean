import Folio.Proofs.Simulation

/-!
# Filled tables

Lines change blocks in few ways: they make empty ones, change the open flow of
one, give one another paragraph or another cell.  A property that survives all
of these holds of every block of a draft, whatever the lines are.  The shape of
a table is such a property: its cells fill one row after the other, so the
lengths of the rows are known from the number of cells alone.
-/

namespace Folio.Draft

open Markup Render

theorem columnCount_positive {declared : Content} {columns : Nat}
    (counted : Table.columnCount declared = .ok columns) : 0 < columns := by
  unfold Table.columnCount at counted
  split at counted
  · cases counted
  · split at counted
    · rename_i count positive
      cases counted
      omega
    · cases counted
  · cases counted

/-- A property that empty blocks have, and that a block keeps when it is
changed. -/
structure Lasting (Holds : Block → Prop) : Prop where
  paragraph (alignment : Alignment) : Holds (.paragraph ⟨alignment, []⟩)
  heading : Holds (.heading [])
  grid {columns : Nat} (positive : 0 < columns) : Holds (.grid ⟨columns, []⟩)
  note (number : Nat) : Holds (.note ⟨number, [⟨.unset, []⟩]⟩)
  modifyItems (change : List Item → List Item) (block : Block) (holds : Holds block) :
    Holds (block.modifyItems change)
  addParagraph (alignment : Alignment) (block : Block) (holds : Holds block) :
    Holds (block.addParagraph alignment)
  addCell (header : Bool) (block : Block) (holds : Holds block) : Holds (block.addCell header)

structure Everywhere (Holds : Block → Prop) (draft : Draft) : Prop where
  closed : ∀ part, Part.closed part ∈ draft.parts → ∀ block ∈ part.blocks, Holds block
  current : ∀ block ∈ draft.blocks, Holds block

/-! ### Properties that last -/

theorem forall_modify {Holds : Block → Prop} {blocks : List Block}
    (all : ∀ block ∈ blocks, Holds block) {change : Block → Block}
    (keeps : ∀ block, Holds block → Holds (change block)) (index : Nat) :
    ∀ block ∈ blocks.modify index change, Holds block := by
  intro block member
  obtain ⟨place, found⟩ := List.mem_iff_getElem?.mp member
  rw [List.getElem?_modify] at found
  obtain ⟨before, isBefore, rfl⟩ := Option.map_eq_some_iff.mp found
  have holds : Holds before := all before (List.mem_of_getElem? isBefore)
  split
  · exact keeps before holds
  · exact holds

theorem forall_append_singleton {Holds : Block → Prop} {blocks : List Block} {added : Block}
    (all : ∀ block ∈ blocks, Holds block) (holds : Holds added) :
    ∀ block ∈ blocks ++ [added], Holds block := by
  intro block member
  rcases List.mem_append.mp member with earlier | isAdded
  · exact all block earlier
  · rw [List.mem_singleton.mp isAdded]
    exact holds

theorem Everywhere.withBlocks {Holds : Block → Prop} {draft : Draft}
    (everywhere : draft.Everywhere Holds) {blocks : List Block}
    (all : ∀ block ∈ blocks, Holds block) : (draft.withBlocks blocks).Everywhere Holds :=
  ⟨everywhere.closed, all⟩

/-- Closing the current section moves its blocks and changes none. -/
theorem Everywhere.closing {Holds : Block → Prop} {draft : Draft}
    (everywhere : draft.Everywhere Holds) :
    ∀ part, Part.closed part ∈ draft.parts ++ [.closed draft.current] →
      ∀ block ∈ part.blocks, Holds block := by
  intro part member
  rcases List.mem_append.mp member with earlier | isCurrent
  · exact everywhere.closed part earlier
  · cases List.mem_singleton.mp isCurrent
    exact everywhere.current

theorem Everywhere.newSection {Holds : Block → Prop} {draft : Draft}
    (everywhere : draft.Everywhere Holds) (line : Directive) :
    (draft.newSection line).Everywhere Holds := by
  refine ⟨fun part member => ?_, fun block member => by cases member⟩
  rcases mem_parts_newSection member with isRule | kept
  · cases isRule
  · exact everywhere.closing part kept

theorem everywhere_start (Holds : Block → Prop) : start.Everywhere Holds where
  closed part member := by cases member
  current block member := by cases member

section

variable {Holds : Block → Prop} (lasting : Lasting Holds) {draft next : Draft}
  (everywhere : draft.Everywhere Holds)
include lasting everywhere

theorem Lasting.reach : ∀ block ∈ draft.reach.1, Holds block := by
  unfold Draft.reach
  split
  · split
    · exact everywhere.current
    · exact forall_append_singleton everywhere.current (lasting.paragraph .unset)
  · split
    · exact everywhere.current
    · exact forall_append_singleton everywhere.current lasting.heading
  · exact everywhere.current
  · exact everywhere.current

theorem Lasting.edit (change : List Item → List Item) : (draft.edit change).Everywhere Holds :=
  everywhere.withBlocks
    (forall_modify (lasting.reach everywhere) (lasting.modifyItems change) draft.reach.2)

theorem Lasting.newParagraph (line : Directive) :
    (draft.newParagraph line).Everywhere Holds := by
  refine ⟨everywhere.closed, ?_⟩
  have fresh : Holds (.paragraph ⟨line.alignment, []⟩) := lasting.paragraph line.alignment
  change ∀ block ∈ (draft.newParagraph line).current.blocks, Holds block
  unfold Draft.newParagraph
  cases draft.focus with
  | body => exact forall_append_singleton (lasting.reach everywhere) fresh
  | head => exact forall_append_singleton everywhere.current fresh
  | note index | cell index =>
      exact forall_modify everywhere.current (lasting.addParagraph line.alignment) index

theorem Lasting.newImage {line : Directive} (shown : draft.newImage line = .ok next) :
    next.Everywhere Holds := by
  have put (source : String) : (draft.put (.image source draft.hint)).Everywhere Holds :=
    lasting.edit everywhere _
  obtain ⟨source, -, -, rfl⟩ := newImage_ok shown
  exact ⟨(put source).closed, (put source).current⟩

theorem Lasting.newTable {line : Directive} (declared : draft.newTable line = .ok next) :
    next.Everywhere Holds := by
  obtain ⟨columns, counted, rfl⟩ := newTable_ok declared
  have positive : 0 < columns := columnCount_positive counted
  exact ⟨everywhere.closed,
    forall_append_singleton everywhere.current (lasting.grid positive)⟩

theorem Lasting.openCell {header : Bool} (opens : draft.openCell header = .ok next) :
    next.Everywhere Holds := by
  obtain ⟨index, -, rfl⟩ := openCell_ok opens
  exact ⟨everywhere.closed,
    forall_modify everywhere.current (lasting.addCell header) index⟩

theorem Lasting.redirect {line : Directive} (redirects : draft.redirect line = .ok next) :
    next.Everywhere Holds := by
  have unlinked : Everywhere Holds { draft with link := none } :=
    ⟨everywhere.closed, everywhere.current⟩
  cases redirects_of_ok redirects with
  | body => exact ⟨everywhere.closed, everywhere.current⟩
  | note =>
      have marked := lasting.edit unlinked (· ++ [.marker draft.nextNote])
      exact ⟨marked.closed, forall_append_singleton marked.current (lasting.note draft.nextNote)⟩
  | cell target opens => exact lasting.openCell unlinked opens
  | head => exact ⟨everywhere.closing, fun block member => by cases member⟩

theorem Lasting.obey {line : Directive} (obeyed : draft.obey line = .ok next) :
    next.Everywhere Holds := by
  cases obeys_of_ok obeyed with
  | newSection => exact everywhere.newSection line
  | newParagraph => exact lasting.newParagraph everywhere line
  | hint | blob => exact ⟨everywhere.closed, everywhere.current⟩
  | link =>
      have linked := lasting.edit everywhere (· ++ [.link line.content.asText draft.hint []])
      exact ⟨linked.closed, linked.current⟩
  | anchor => exact lasting.edit everywhere _
  | image kind shown => exact lasting.newImage everywhere shown
  | table kind declared => exact lasting.newTable everywhere declared
  | destination kind redirects => exact lasting.redirect everywhere redirects

theorem Lasting.step {line : Line} (stepped : draft.step line = .ok next) :
    next.Everywhere Holds := by
  have ready : Everywhere Holds (if line.resets then draft.reset else draft) := by
    split
    · exact ⟨everywhere.closed, everywhere.current⟩
    · exact everywhere
  cases line with
  | directive line => exact lasting.obey ready stepped
  | run run =>
      cases stepped
      obtain ⟨change, edited, -⟩ := addRun_eq_edit _ run
      rw [edited]
      exact lasting.edit ready change
  | foreign shown => cases stepped

/-- A property that lasts is kept by a run of lines. -/
theorem Lasting.run {lines : List Line} (ran : draft.run lines = .ok next) :
    next.Everywhere Holds :=
  run_keeps (fun everywhere stepped => lasting.step everywhere stepped) everywhere ran

end

/-! ### Rows -/

/-- How long the rows are that so many cells make in so many columns. -/
def rowLengths (columns count : Nat) : List Nat :=
  List.replicate (count / columns) columns ++
    if count % columns = 0 then [] else [count % columns]

/-- The cells of a table fill one row after the other. -/
structure Grid.Laid (table : Grid) : Prop where
  positive : 0 < table.columns
  lengths : table.rows.map List.length = rowLengths table.columns table.cellCount

def Block.Laid : Block → Prop
  | .grid table => table.Laid
  | _ => True

/-- One cell more begins a row if the rows are full, and goes into the last one
otherwise. -/
theorem rowLengths_succ {columns : Nat} (positive : 0 < columns) (count : Nat) :
    rowLengths columns (count + 1) =
      if count % columns = 0 then rowLengths columns count ++ [1]
      else (rowLengths columns count).dropLast ++ [count % columns + 1] := by
  have split : columns * (count / columns) + count % columns = count :=
    Nat.div_add_mod count columns
  have short : count % columns < columns := Nat.mod_lt count positive
  by_cases full : count % columns + 1 = columns
  · have filled : (count + 1) / columns = count / columns + 1 ∧ (count + 1) % columns = 0 :=
      (Nat.div_mod_unique positive).mpr ⟨by rw [Nat.mul_succ]; omega, positive⟩
    have lengths : rowLengths columns (count + 1) =
        List.replicate (count / columns) columns ++ [count % columns + 1] := by
      simp [rowLengths, filled.1, filled.2, full, List.replicate_succ']
    rw [lengths]
    by_cases begun : count % columns = 0
    · simp [rowLengths, begun]
    · simp [rowLengths, begun]
  · have longer : (count + 1) / columns = count / columns ∧
        (count + 1) % columns = count % columns + 1 :=
      (Nat.div_mod_unique positive).mpr ⟨by omega, by omega⟩
    have lengths : rowLengths columns (count + 1) =
        List.replicate (count / columns) columns ++ [count % columns + 1] := by
      simp [rowLengths, longer.1, longer.2]
    rw [lengths]
    by_cases begun : count % columns = 0
    · simp [rowLengths, begun]
    · simp [rowLengths, begun]

theorem rowLengths_positive {columns count length : Nat} (positive : 0 < columns)
    (member : length ∈ rowLengths columns count) : 0 < length := by
  rcases List.mem_append.mp member with full | last
  · rw [List.eq_of_mem_replicate full]
    exact positive
  · split at last
    · cases last
    · rename_i begun
      rw [List.mem_singleton.mp last]
      exact Nat.pos_of_ne_zero begun

theorem length_rowLengths {columns : Nat} (positive : 0 < columns) (count : Nat) :
    (rowLengths columns count).length = (count + columns - 1) / columns := by
  have split : columns * (count / columns) + count % columns = count :=
    Nat.div_add_mod count columns
  have short : count % columns < columns := Nat.mod_lt count positive
  by_cases full : count % columns = 0
  · have quotient : (count + columns - 1) / columns = count / columns ∧
        (count + columns - 1) % columns = columns - 1 :=
      (Nat.div_mod_unique positive).mpr ⟨by omega, by omega⟩
    simp [rowLengths, full, quotient.1]
  · have quotient : (count + columns - 1) / columns = count / columns + 1 ∧
        (count + columns - 1) % columns = count % columns - 1 :=
      (Nat.div_mod_unique positive).mpr ⟨by rw [Nat.mul_succ]; omega, by omega⟩
    simp [rowLengths, full, quotient.1]

theorem eq_of_mem_dropLast_rowLengths {columns count length : Nat}
    (member : length ∈ (rowLengths columns count).dropLast) : length = columns := by
  by_cases full : count % columns = 0
  · rw [rowLengths, if_pos full, List.append_nil, List.dropLast_replicate] at member
    exact List.eq_of_mem_replicate member
  · rw [rowLengths, if_neg full, List.dropLast_concat] at member
    exact List.eq_of_mem_replicate member

theorem eq_of_getLast?_rowLengths {columns count length : Nat}
    (last : (rowLengths columns count).getLast? = some length) :
    length = count - columns * ((rowLengths columns count).length - 1) := by
  have split : columns * (count / columns) + count % columns = count :=
    Nat.div_add_mod count columns
  by_cases full : count % columns = 0
  · cases rows : count / columns with
    | zero => simp [rowLengths, full, rows] at last
    | succ earlier =>
        rw [rows, Nat.mul_succ] at split
        simp only [rowLengths, full, rows, if_true, List.append_nil, List.getLast?_replicate,
          Nat.succ_ne_zero, if_false, Option.some.injEq] at last
        simp [rowLengths, full, rows]
        omega
  · simp only [rowLengths, full, if_false, List.getLast?_concat, Option.some.injEq] at last
    simp [rowLengths, full]
    omega

theorem Grid.Laid.row_ne_nil {table : Grid} (laid : table.Laid) {row : List Cell}
    (member : row ∈ table.rows) : row ≠ [] := by
  have length : row.length ∈ rowLengths table.columns table.cellCount := by
    rw [← laid.lengths]
    exact List.mem_map_of_mem member
  exact List.ne_nil_of_length_pos (rowLengths_positive laid.positive length)

@[simp]
theorem columns_addCell (header : Bool) (table : Grid) :
    (table.addCell header).columns = table.columns := by
  by_cases full : table.cellCount % table.columns = 0
  · rw [addCell_full header full]
  · obtain ⟨rows, row, -, added⟩ := addCell_begun header full
    rw [added]

@[simp]
theorem cellCount_addCell (header : Bool) (table : Grid) :
    (table.addCell header).cellCount = table.cellCount + 1 := by
  by_cases full : table.cellCount % table.columns = 0
  · rw [addCell_full header full]
    simp [Grid.cellCount]
  · obtain ⟨rows, row, split, added⟩ := addCell_begun header full
    rw [added]
    simp [Grid.cellCount, split]
    omega

theorem Grid.Laid.length_last {table : Grid} (laid : table.Laid) {rows : List (List Cell)}
    {row : List Cell} (split : table.rows = rows ++ [row])
    (begun : table.cellCount % table.columns ≠ 0) :
    row.length = table.cellCount % table.columns ∧
      rows.map List.length = (rowLengths table.columns table.cellCount).dropLast := by
  have lengths := laid.lengths
  rw [split, List.map_append, rowLengths, if_neg begun] at lengths
  obtain ⟨earlier, last⟩ := List.append_inj' lengths rfl
  exact ⟨List.head_eq_of_cons_eq last, by simp [rowLengths, begun, earlier]⟩

theorem Grid.Laid.addCell {table : Grid} (laid : table.Laid) (header : Bool) :
    (table.addCell header).Laid := by
  refine ⟨by simpa using laid.positive, ?_⟩
  rw [columns_addCell, cellCount_addCell, rowLengths_succ laid.positive]
  by_cases full : table.cellCount % table.columns = 0
  · rw [addCell_full header full, if_pos full, ← laid.lengths]
    simp
  · obtain ⟨rows, row, split, added⟩ := addCell_begun header full
    obtain ⟨length, earlier⟩ := laid.length_last split full
    rw [added, if_neg full, ← earlier, ← length]
    simp

/-- How long the rows of a block are, if it has any. -/
def Block.shape : Block → Option (Nat × List Nat)
  | .grid table => some (table.columns, table.rows.map List.length)
  | _ => none

theorem laid_of_shape {block other : Block} (same : other.shape = block.shape)
    (laid : block.Laid) : other.Laid := by
  cases block with
  | grid table =>
      cases other with
      | grid changed =>
          obtain ⟨columns, lengths⟩ := Prod.mk.inj (Option.some.inj same)
          have count : changed.cellCount = table.cellCount := by
            rw [Grid.cellCount, Grid.cellCount, List.length_flatten, List.length_flatten, lengths]
          exact ⟨columns ▸ laid.positive, by rw [lengths, columns, count]; exact laid.lengths⟩
      | _ => trivial
  | _ =>
      cases other with
      | grid changed => cases same
      | _ => trivial

theorem shape_fill (frame : Frame) (items edited : List Item) :
    (frame.fill edited).shape = (frame.fill items).shape := by
  cases frame with
  | cell columns rows row header inner => simp [Frame.fill, Block.shape]
  | _ => rfl

theorem shape_next (frame : Frame) (items : List Item) (alignment : Alignment) :
    ((frame.next items alignment).fill []).shape = (frame.fill items).shape := by
  cases frame with
  | cell columns rows row header inner => simp [Frame.next, Frame.fill, Block.shape]
  | _ => rfl

theorem shape_modifyItems (change : List Item → List Item) (block : Block) :
    (block.modifyItems change).shape = block.shape := by
  unfold Block.modifyItems
  split
  · rfl
  · rename_i frame items opened
    rw [eq_fill_of_opened? opened, shape_fill]

theorem shape_addParagraph (alignment : Alignment) (block : Block) :
    (block.addParagraph alignment).shape = block.shape := by
  unfold Block.addParagraph
  split
  · rfl
  · rename_i frame items opened
    rw [eq_fill_of_opened? opened, shape_next]

/-- Tables are laid out row by row, whatever stands between the cells. -/
theorem lasting_laid : Lasting Block.Laid where
  paragraph _ := trivial
  heading := trivial
  grid positive := ⟨positive, by simp [rowLengths, Grid.cellCount]⟩
  note _ := trivial
  modifyItems change block laid := laid_of_shape (shape_modifyItems change block) laid
  addParagraph alignment block laid := laid_of_shape (shape_addParagraph alignment block) laid
  addCell header block laid := by
    cases block with
    | grid table => exact Grid.Laid.addCell laid header
    | _ => trivial

/-- In every draft that lines lead to, all tables are laid out row by row. -/
theorem laid_of_run {lines : List Line} {draft : Draft} (ran : start.run lines = .ok draft) :
    draft.Everywhere Block.Laid :=
  lasting_laid.run (everywhere_start Block.Laid) ran

end Folio.Draft
