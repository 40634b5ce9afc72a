import Folio.Proofs.Renumbering

/-!
# Section boundaries

A line that begins a section leaves nothing behind of what came before, except for
the number of the next note, a blob and a tooltip that wait, and the question
whether a rule has anything to separate.  Without blob, tooltip and rule, the lines
from there on render as they do on their own, with the numbers of their notes raised
by how many notes came before.
-/

namespace Folio

open Markup Render

namespace Draft

/-! ### Raising numbers commutes with lines -/

def raise (shift : Nat) (draft : Draft) : Draft :=
  { draft with
    parts := draft.parts.map (Part.raise shift)
    current := draft.current.raise shift
    nextNote := draft.nextNote + shift }

def CellFrame.raise (shift : Nat) : CellFrame → CellFrame
  | .lead => .lead
  | .paragraph front earlier alignment =>
      .paragraph (front.map (Item.raise shift)) (earlier.map (Paragraph.raise shift)) alignment

def Frame.raise (shift : Nat) : Frame → Frame
  | .paragraph alignment => .paragraph alignment
  | .heading => .heading
  | .note number earlier alignment =>
      .note (number + shift) (earlier.map (Paragraph.raise shift)) alignment
  | .cell columns rows row header inner =>
      .cell columns (rows.map (·.map (Cell.raise shift))) (row.map (Cell.raise shift)) header
        (inner.raise shift)

variable (shift : Nat)

theorem raise_fill (frame : Frame) (items : List Item) :
    (frame.fill items).raise shift =
      (frame.raise shift).fill (items.map (Item.raise shift)) := by
  cases frame with
  | cell columns rows row header inner =>
      cases inner <;>
        simp [Frame.fill, Frame.raise, Block.raise, Grid.raise, CellFrame.fill, CellFrame.raise,
          Cell.raise, Paragraph.raise]
  | _ =>
      simp [Frame.fill, Frame.raise, Block.raise, Footnote.raise, Paragraph.raise]

theorem raise_next (frame : Frame) (items : List Item) (alignment : Alignment) :
    (frame.next items alignment).raise shift =
      (frame.raise shift).next (items.map (Item.raise shift)) alignment := by
  cases frame with
  | cell columns rows row header inner =>
      cases inner <;>
        simp [Frame.next, Frame.raise, CellFrame.next, CellFrame.raise, Paragraph.raise]
  | _ => simp [Frame.next, Frame.raise, Paragraph.raise]

theorem opened?_raise (block : Block) :
    (block.raise shift).opened? =
      block.opened?.map fun (frame, items) =>
        (frame.raise shift, items.map (Item.raise shift)) := by
  cases opened : block.opened? with
  | some found =>
      obtain ⟨frame, items⟩ := found
      rw [eq_fill_of_opened? opened, raise_fill, opened?_fill]
      rfl
  | none =>
      cases block with
      | paragraph single => cases opened
      | heading items => cases opened
      | note footnote =>
          obtain ⟨number, paragraphs⟩ := footnote
          rcases List.eq_nil_or_concat paragraphs with rfl | ⟨earlier, last, rfl⟩
          · rfl
          · simp [Block.opened?] at opened
      | grid table =>
          obtain ⟨columns, rows⟩ := table
          rcases List.eq_nil_or_concat rows with rfl | ⟨earlier, row, rfl⟩
          · rfl
          · rcases List.eq_nil_or_concat row with rfl | ⟨before, cell, rfl⟩
            · simp [Block.raise, Grid.raise, Block.opened?]
            · simp [Block.opened?] at opened

theorem raise_modifyItems {change raised : List Item → List Item}
    (commutes : ∀ items, (change items).map (Item.raise shift) =
      raised (items.map (Item.raise shift))) (block : Block) :
    (block.modifyItems change).raise shift = (block.raise shift).modifyItems raised := by
  rw [Block.modifyItems, Block.modifyItems, opened?_raise]
  cases block.opened? with
  | none => rfl
  | some found => simp [raise_fill, commutes]

theorem raise_addParagraph (alignment : Alignment) (block : Block) :
    (block.addParagraph alignment).raise shift = (block.raise shift).addParagraph alignment := by
  rw [Block.addParagraph, Block.addParagraph, opened?_raise]
  cases block.opened? with
  | none => rfl
  | some found => simp [raise_fill, raise_next]

theorem cellCount_raise (table : Grid) : (table.raise shift).cellCount = table.cellCount := by
  simp [Grid.cellCount, Grid.raise, ← List.map_flatten]

theorem raise_addCell (header : Bool) (block : Block) :
    (block.addCell header).raise shift = (block.raise shift).addCell header := by
  cases block with
  | grid table =>
      have fresh : Cell.raise shift ⟨header, [], []⟩ = ⟨header, [], []⟩ := rfl
      have columns : (table.raise shift).columns = table.columns := rfl
      simp only [Block.addCell, Block.raise]
      rw [Grid.addCell, Grid.addCell, cellCount_raise, columns]
      cases last : table.rows.getLast? with
      | none => simp [Grid.raise, last, fresh]
      | some row =>
          simp only [Grid.raise, List.getLast?_map, last, Option.map_some]
          split <;> simp [fresh]
  | _ => rfl

theorem map_modify_of_commutes {Thing Told : Type} {tell : Thing → Told}
    {change : Thing → Thing} {told : Told → Told}
    (commutes : ∀ thing, tell (change thing) = told (tell thing)) (index : Nat)
    (things : List Thing) :
    (things.modify index change).map tell = (things.map tell).modify index told := by
  induction things generalizing index with
  | nil => simp
  | cons thing rest inductionHypothesis =>
      cases index with
      | zero => simp [commutes]
      | succ index => simp [inductionHypothesis]

/-! ### Raising numbers in a draft -/

variable (draft : Draft)

theorem blocks_raise : (draft.raise shift).blocks = draft.blocks.map (Block.raise shift) := rfl

theorem raise_withBlocks (blocks : List Block) :
    (draft.withBlocks blocks).raise shift =
      (draft.raise shift).withBlocks (blocks.map (Block.raise shift)) := rfl

theorem reach_raise :
    (draft.raise shift).reach = (draft.reach.1.map (Block.raise shift), draft.reach.2) := by
  have focus : (draft.raise shift).focus = draft.focus := rfl
  rw [reach, reach, focus, blocks_raise, List.getLast?_map]
  cases draft.focus with
  | body =>
      cases draft.blocks.getLast? with
      | none => simp [Block.raise, Paragraph.raise]
      | some block => cases block <;> simp [Block.raise, Paragraph.raise]
  | head =>
      cases draft.blocks.getLast? with
      | none => simp [Block.raise]
      | some block => cases block <;> simp [Block.raise]
  | note index => rfl
  | cell index => rfl

theorem raise_edit {change raised : List Item → List Item}
    (commutes : ∀ items, (change items).map (Item.raise shift) =
      raised (items.map (Item.raise shift))) :
    (draft.edit change).raise shift = (draft.raise shift).edit raised := by
  rw [edit, edit, reach_raise, raise_withBlocks,
    map_modify_of_commutes (raise_modifyItems shift commutes)]

theorem raise_put (item : Item) :
    (draft.put item).raise shift = (draft.raise shift).put (item.raise shift) :=
  raise_edit shift draft fun items => by simp

theorem raise_item_addRun (run : TextRun) (item : Item) :
    (item.addRun run).raise shift = (item.raise shift).addRun run := by
  cases item <;> rfl

theorem raise_addRun (run : TextRun) :
    (draft.addRun run).raise shift = (draft.raise shift).addRun run := by
  have link : (draft.raise shift).link = draft.link := rfl
  rw [Draft.addRun, Draft.addRun, link, reach_raise]
  cases draft.link with
  | none => exact raise_put shift draft (.text run)
  | some link =>
      dsimp only
      split
      · exact raise_edit shift draft fun items =>
          map_modify_of_commutes (raise_item_addRun shift run) link.item items
      · exact raise_put shift draft (.text run)

theorem reachedCount_raise : (draft.raise shift).reachedCount = draft.reachedCount := by
  rw [reachedCount, reachedCount, reach_raise]
  simp only [List.getElem?_map]
  cases draft.reach.1[draft.reach.2]? with
  | none => rfl
  | some block =>
      simp only [Option.map_some, Option.bind_some, opened?_raise]
      cases block.opened? <;> simp

theorem isSection_raise (part : Part) : (part.raise shift).isSection = part.isSection := by
  cases part <;> rfl

theorem raise_newSection (line : Directive) :
    (draft.newSection line).raise shift = (draft.raise shift).newSection line := by
  have kept : (if (draft.raise shift).blocks = [] then (draft.raise shift).parts
      else (draft.raise shift).parts ++ [.closed (draft.raise shift).current]) =
      (if draft.blocks = [] then draft.parts
        else draft.parts ++ [.closed draft.current]).map (Part.raise shift) := by
    have vacant : (draft.raise shift).blocks = [] ↔ draft.blocks = [] := List.map_eq_nil_iff
    by_cases empty : draft.blocks = []
    · rw [if_pos empty, if_pos (vacant.mpr empty)]
      rfl
    · rw [if_neg empty, if_neg (mt vacant.mp empty), List.map_append]
      rfl
  have any (parts : List Part) :
      (parts.map (Part.raise shift)).any Part.isSection = parts.any Part.isSection := by
    simp [List.any_map, Function.comp_def, isSection_raise]
  simp only [Draft.newSection, kept, any]
  generalize (if draft.blocks = [] then draft.parts else draft.parts ++ [.closed draft.current]) =
    parts
  cases line.breakBefore && parts.any Part.isSection with
  | true => simp [raise, Section.raise, Part.raise]
  | false => rfl

theorem raise_newParagraph (line : Directive) :
    (draft.newParagraph line).raise shift = (draft.raise shift).newParagraph line := by
  have focus : (draft.raise shift).focus = draft.focus := rfl
  have paragraph : (Block.paragraph ⟨line.alignment, []⟩).raise shift =
      .paragraph ⟨line.alignment, []⟩ := rfl
  have modified (index : Nat) := map_modify_of_commutes
    (raise_addParagraph shift line.alignment) index draft.blocks
  have unlinked (blocks : List Block) :
      raise shift { draft.withBlocks blocks with link := none } =
        { (draft.raise shift).withBlocks (blocks.map (Block.raise shift)) with link := none } := rfl
  rw [Draft.newParagraph, Draft.newParagraph, unlinked, focus, reach_raise, blocks_raise]
  cases draft.focus <;> simp [modified, paragraph]

theorem raise_newLink (line : Directive) :
    (draft.newLink line).raise shift = (draft.raise shift).newLink line := by
  have put := raise_put shift draft (.link line.content.asText draft.hint [])
  have linked (put : Draft) (link : Option LinkReference) :
      raise shift { put with link := link, hint := none } =
        { put.raise shift with link := link, hint := none } := rfl
  rw [Draft.newLink, Draft.newLink, linked, put, reach_raise, reachedCount_raise]
  rfl

theorem raise_newImage (line : Directive) :
    (draft.newImage line).map (raise shift) = (draft.raise shift).newImage line := by
  have put (source : String) := raise_put shift draft (.image source draft.hint)
  have blob : (draft.raise shift).blob = draft.blob := rfl
  have hint : (draft.raise shift).hint = draft.hint := rfl
  have unblobbed (draft : Draft) (blob : Option Blob) :
      raise shift { draft with blob := blob, hint := none } =
        { draft.raise shift with blob := blob, hint := none } := rfl
  rw [Draft.newImage, Draft.newImage, blob, hint]
  split
  · cases draft.blob with
    | none => rfl
    | some blob =>
        have same := unblobbed (draft.put (.image blob.address draft.hint)) none
        rw [put] at same
        exact congrArg Except.ok same
  · have same := unblobbed (draft.put (.image line.content.asText draft.hint)) draft.blob
    rw [put] at same
    exact congrArg Except.ok same

theorem raise_newTable (line : Directive) :
    (draft.newTable line).map (raise shift) = (draft.raise shift).newTable line := by
  have length : (draft.raise shift).blocks.length = draft.blocks.length := List.length_map _
  rw [Draft.newTable, Draft.newTable, length]
  cases Table.columnCount line.content with
  | error failure => rfl
  | ok columns =>
      refine congrArg Except.ok ?_
      simp [raise, withBlocks, Draft.blocks, Section.raise, Block.raise, Grid.raise]

theorem raise_openNote : draft.openNote.raise shift = (draft.raise shift).openNote := by
  have put := raise_put shift draft (.marker draft.nextNote)
  have nextNote : (draft.raise shift).nextNote = draft.nextNote + shift := rfl
  have noted (marked : Draft) : raise shift
      { marked.withBlocks (marked.blocks ++ [.note ⟨draft.nextNote, [⟨.unset, []⟩]⟩]) with
        nextNote := draft.nextNote + 1
        focus := .note marked.blocks.length } =
      { (marked.raise shift).withBlocks ((marked.raise shift).blocks ++
          [.note ⟨draft.nextNote + shift, [⟨.unset, []⟩]⟩]) with
        nextNote := draft.nextNote + shift + 1
        focus := .note (marked.raise shift).blocks.length } := by
    simp [raise, withBlocks, Draft.blocks, Section.raise, Block.raise, Footnote.raise,
      Paragraph.raise, Nat.add_right_comm]
  rw [Draft.openNote, Draft.openNote, noted, put, nextNote]
  rfl

theorem raise_openCell (header : Bool) :
    (draft.openCell header).map (raise shift) = (draft.raise shift).openCell header := by
  have table : (draft.raise shift).table = draft.table := rfl
  rw [Draft.openCell, Draft.openCell, table]
  cases draft.table with
  | none => rfl
  | some index =>
      have modified := map_modify_of_commutes (raise_addCell shift header) index draft.blocks
      rw [← blocks_raise] at modified
      dsimp only
      rw [← modified]
      rfl

theorem raise_redirect (line : Directive) :
    (draft.redirect line).map (raise shift) = (draft.raise shift).redirect line := by
  have noted := raise_openNote shift { draft with link := none }
  have celled := raise_openCell shift { draft with link := none } line.header
  have headed : raise shift (Draft.openHead { draft with link := none }) =
      Draft.openHead { draft.raise shift with link := none } := by
    simp [Draft.openHead, raise, Part.raise, Section.raise]
  unfold Draft.redirect
  split
  · rfl
  · exact congrArg Except.ok noted
  · exact celled
  · exact congrArg Except.ok headed
  · rfl

/-- Wording the failures of an outcome leaves its result. -/
theorem map_mapError {Cause Other Result Told : Type} (outcome : Except Cause Result)
    (wording : Cause → Other) (tell : Result → Told) :
    (outcome.mapError wording).map tell = (outcome.map tell).mapError wording := by
  cases outcome <;> rfl

theorem raise_obey (line : Directive) :
    (draft.obey line).map (raise shift) = (draft.raise shift).obey line := by
  unfold Draft.obey
  split
  · exact congrArg Except.ok (raise_newSection shift draft line)
  · exact congrArg Except.ok (raise_newParagraph shift draft line)
  · rfl
  · exact congrArg Except.ok (raise_newLink shift draft line)
  · exact congrArg Except.ok (raise_put shift draft (.anchor line.content.asText))
  · rfl
  · rw [map_mapError, raise_newImage]
  · exact raise_newTable shift draft line
  · rw [map_mapError, raise_redirect]

theorem raise_step (line : Line) :
    (draft.step line).map (raise shift) = (draft.raise shift).step line := by
  have ready : (if line.resets then draft.reset else draft).raise shift =
      if line.resets then (draft.raise shift).reset else draft.raise shift := by
    split <;> rfl
  unfold Draft.step
  rw [← ready]
  cases line with
  | directive line => exact raise_obey shift _ line
  | run run => exact congrArg Except.ok (raise_addRun shift _ run)
  | foreign shown => rfl

/-- Lines do the same whatever numbers notes have so far. -/
theorem raise_run (lines : List Line) :
    (draft.run lines).map (raise shift) = (draft.raise shift).run lines := by
  induction lines generalizing draft with
  | nil => rfl
  | cons line rest inductionHypothesis =>
      rw [run, run, ← raise_step]
      cases draft.step line with
      | error failure => rfl
      | ok next => exact inductionHypothesis next

/-! ### Parts in front -/

end Draft

/-- Whether a line asks for a rule in front of the section that it begins. -/
def Line.asksForRule : Line → Bool
  | .directive line => line.kind == .newSection && line.breakBefore
  | _ => false

namespace Draft

def behind (front : List Part) (draft : Draft) : Draft :=
  { draft with parts := front ++ draft.parts }

variable (front : List Part) (draft : Draft)

theorem behind_newSection {line : Directive} (unruled : line.breakBefore = false) :
    (draft.newSection line).behind front = (draft.behind front).newSection line := by
  have blocks : (draft.behind front).blocks = draft.blocks := rfl
  simp only [Draft.newSection, unruled, Bool.false_and, Bool.false_eq_true, if_false, blocks]
  split
  · rfl
  · simp [behind]

theorem behind_newParagraph (line : Directive) :
    (draft.newParagraph line).behind front = (draft.behind front).newParagraph line := by
  have focus : (draft.behind front).focus = draft.focus := rfl
  rw [Draft.newParagraph, Draft.newParagraph, focus]
  cases draft.focus <;> rfl

theorem behind_newImage (line : Directive) :
    (draft.newImage line).map (behind front) = (draft.behind front).newImage line := by
  have blob : (draft.behind front).blob = draft.blob := rfl
  rw [Draft.newImage, Draft.newImage, blob]
  split
  · cases draft.blob <;> rfl
  · rfl

theorem behind_newTable (line : Directive) :
    (draft.newTable line).map (behind front) = (draft.behind front).newTable line := by
  rw [Draft.newTable, Draft.newTable]
  cases Table.columnCount line.content <;> rfl

theorem behind_openCell (header : Bool) :
    (draft.openCell header).map (behind front) = (draft.behind front).openCell header := by
  have table : (draft.behind front).table = draft.table := rfl
  rw [Draft.openCell, Draft.openCell, table]
  cases draft.table <;> rfl

theorem behind_redirect (line : Directive) :
    (draft.redirect line).map (behind front) = (draft.behind front).redirect line := by
  have celled := behind_openCell front { draft with link := none } line.header
  have headed : behind front (Draft.openHead { draft with link := none }) =
      Draft.openHead { draft.behind front with link := none } := by
    simp [Draft.openHead, behind]
  unfold Draft.redirect
  split
  · rfl
  · rfl
  · exact celled
  · exact congrArg Except.ok headed
  · rfl

theorem behind_addRun (run : TextRun) :
    (draft.addRun run).behind front = (draft.behind front).addRun run := by
  have link : (draft.behind front).link = draft.link := rfl
  rw [Draft.addRun, Draft.addRun, link]
  cases draft.link with
  | none => rfl
  | some link =>
      have reached : (draft.behind front).reach = draft.reach := rfl
      dsimp only
      rw [reached]
      split <;> rfl

theorem behind_obey {line : Directive} (unruled : (Line.directive line).asksForRule = false) :
    (draft.obey line).map (behind front) = (draft.behind front).obey line := by
  unfold Draft.obey
  split
  · rename_i kind
    have unbroken : line.breakBefore = false := by simpa [Line.asksForRule, kind] using unruled
    exact congrArg Except.ok (behind_newSection front draft unbroken)
  · exact congrArg Except.ok (behind_newParagraph front draft line)
  · rfl
  · rfl
  · rfl
  · rfl
  · rw [map_mapError, behind_newImage]
  · exact behind_newTable front draft line
  · rw [map_mapError, behind_redirect]

theorem behind_step {line : Line} (unruled : line.asksForRule = false) :
    (draft.step line).map (behind front) = (draft.behind front).step line := by
  have ready : (if line.resets then draft.reset else draft).behind front =
      if line.resets then (draft.behind front).reset else draft.behind front := by
    split <;> rfl
  unfold Draft.step
  rw [← ready]
  cases line with
  | directive line => exact behind_obey front _ unruled
  | run run => exact congrArg Except.ok (behind_addRun front _ run)
  | foreign shown => rfl

/-- Lines that ask for no rule do the same whatever stands in front. -/
theorem behind_run {lines : List Line} (unruled : ∀ line ∈ lines, line.asksForRule = false) :
    (draft.run lines).map (behind front) = (draft.behind front).run lines := by
  induction lines generalizing draft with
  | nil => rfl
  | cons line rest inductionHypothesis =>
      have unruledRest : ∀ later ∈ rest, later.asksForRule = false := fun later member =>
        unruled later (List.mem_cons_of_mem line member)
      rw [run, run, ← behind_step front draft (unruled line List.mem_cons_self)]
      cases draft.step line with
      | error failure => rfl
      | ok next => exact inductionHypothesis next unruledRest

end Draft

end Folio
