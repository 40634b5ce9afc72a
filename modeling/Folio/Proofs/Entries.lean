import Folio.Proofs.Conservation
import Folio.Proofs.Items

/-!
# What a draft puts into the page

The entries of a draft are the items of its flows, and the ways back in front of its
notes.  They are told apart by the side of the page they stand on, inside tables or
outside.  What is put where content goes stands behind all other entries of its side;
text that goes into the open link changes the entry of that link and no other.
-/

namespace Folio

open Markup Render

namespace Draft

/-- An item of a flow, or the way back in front of a note. -/
inductive Entry where
  | item (item : Item)
  | back (number : Nat)
  deriving DecidableEq

def Block.entries : Block → List Entry
  | .note footnote =>
      .back footnote.number :: (footnote.paragraphs.flatMap Paragraph.items).map .item
  | block => block.items.map .item

/-- The entries of a block on the side where it stands: inside tables, or outside. -/
def Block.entriesOn (inTable : Bool) (block : Block) : List Entry :=
  if block.kind.isGrid = inTable then block.entries else []

/-- The entries of all blocks on one side. -/
def entriesOn (inTable : Bool) (draft : Draft) : List Entry :=
  (draft.parts ++ [Part.closed draft.current]).flatMap (Part.told (Block.entriesOn inTable))

theorem entriesOn_eq (inTable : Bool) (draft : Draft) :
    draft.entriesOn inTable =
      draft.parts.flatMap (Part.told (Block.entriesOn inTable)) ++
        draft.blocks.flatMap (Block.entriesOn inTable) := by
  rw [entriesOn, List.flatMap_append]
  simp [Part.told, blocks]

/-- The entries are those of the parts and of the blocks of the current section. -/
theorem entriesOn_congr {inTable : Bool} {first second : Draft} (parts : first.parts = second.parts)
    (blocks : first.blocks.flatMap (Block.entriesOn inTable) =
      second.blocks.flatMap (Block.entriesOn inTable)) :
    first.entriesOn inTable = second.entriesOn inTable := by
  rw [entriesOn_eq, entriesOn_eq, parts, blocks]

/-! ### Entries of blocks -/

theorem entries_fill (frame : Frame) :
    ∃ front, ∀ items, (frame.fill items).entries = front ++ items.map .item := by
  obtain ⟨front, filled⟩ := items_fill frame
  have plain (before : List Entry)
      (entries : ∀ items, (frame.fill items).entries =
        before ++ (frame.fill items).items.map .item) :
      ∃ front, ∀ items, (frame.fill items).entries = front ++ items.map .item :=
    ⟨before ++ front.map .item, fun items => by
      rw [entries, filled, List.map_append, List.append_assoc]⟩
  cases frame with
  | note number earlier alignment => exact plain [.back number] fun items => rfl
  | paragraph alignment => exact plain [] fun items => rfl
  | heading => exact plain [] fun items => rfl
  | cell columns rows row header inner => exact plain [] fun items => rfl

/-- A block without items that is no note has no entries. -/
theorem entriesOn_of_empty {block : Block} (empty : block.entries = []) (inTable : Bool) :
    block.entriesOn inTable = [] := by
  simp [Block.entriesOn, empty]

theorem entriesOn_elsewhere {block : Block} {inTable : Bool}
    (elsewhere : block.kind.isGrid ≠ inTable) : block.entriesOn inTable = [] :=
  if_neg elsewhere

/-- Behind the flow that content goes to there is nothing on the same side. -/
theorem Fits.entriesOn_after {destination : Destination} {frame : Frame} {after : List Block}
    (fits : Fits destination frame after) :
    after.flatMap (Block.entriesOn (destination == .cell)) = [] := by
  rw [List.flatMap_eq_nil_iff]
  intro block member
  cases destination with
  | body =>
      rw [fits.2] at member
      cases member
  | head =>
      rw [fits.2] at member
      cases member
  | note => exact entriesOn_elsewhere (by simp [fits.2 block member])
  | cell =>
      have cellless := fits.2 block member
      cases block with
      | grid table =>
          have rows : table.rows = [] := by simpa [Block.isCellless] using cellless
          exact entriesOn_of_empty (by simp [Block.entries, Block.items, rows]) _
      | _ => exact entriesOn_elsewhere (by simp [Block.kind, Kind.isGrid])

theorem flatMap_entriesOn_reach (draft : Draft) (inTable : Bool) :
    draft.reach.1.flatMap (Block.entriesOn inTable) =
      draft.blocks.flatMap (Block.entriesOn inTable) :=
  flatMap_reach (entriesOn_of_empty rfl _) (entriesOn_of_empty rfl _) draft

theorem entriesOn_next (frame : Frame) {container : Place}
    (inside : frame.container? = some container) (items : List Item) (alignment : Alignment)
    (inTable : Bool) :
    ((frame.next items alignment).fill []).entriesOn inTable =
      (frame.fill items).entriesOn inTable := by
  have same : ((frame.next items alignment).fill []).entries = (frame.fill items).entries := by
    have items := items_next frame inside items alignment
    cases frame with
    | paragraph current => cases inside
    | heading => cases inside
    | note number earlier current => exact congrArg (Entry.back number :: ·.map .item) items
    | cell columns rows row header inner => exact congrArg (·.map Entry.item) items
  simp [Block.entriesOn, same]

theorem entriesOn_addCell (header : Bool) (inTable : Bool) (block : Block) :
    (block.addCell header).entriesOn inTable = block.entriesOn inTable := by
  have same : (block.addCell header).entries = block.entries := by
    cases block with
    | grid table => exact congrArg (·.map Entry.item) (items_addCell header (.grid table))
    | _ => rfl
  simp [Block.entriesOn, same]

theorem entries_pruned (block : Block) : block.pruned.entries = block.entries := by
  have items := items_pruned block
  cases block with
  | note footnote => exact congrArg (Entry.back footnote.number :: ·.map .item) items
  | _ => exact congrArg (·.map Entry.item) items

/-! ### Changing the open flow -/

/-- How the entries on each side come about when the open flow, which has these items,
is changed: on its own side its items stand last, and the other side stays as it is. -/
structure OpenLast (draft : Draft) (front : List Entry) (items : List Item) : Prop where
  count : draft.reachedCount = items.length
  here : draft.entriesOn draft.cursor.inTable = front ++ items.map .item
  edited (change : List Item → List Item) :
    (draft.edit change).entriesOn draft.cursor.inTable = front ++ (change items).map .item
  elsewhere (change : List Item → List Item) :
    (draft.edit change).entriesOn (!draft.cursor.inTable) =
      draft.entriesOn (!draft.cursor.inTable)

theorem Sound.openLast {draft : Draft} (sound : draft.Sound) :
    ∃ front frame items after, OpenLast draft front items ∧
      OpenAt draft.reach.1 draft.reach.2 frame items after := by
  obtain ⟨frame, items, after, opened, fits⟩ := sound.openAt_reach
  have found := opened.getElem?
  obtain ⟨inBlock, filled⟩ := entries_fill frame
  obtain ⟨before, split, position⟩ := id opened
  have side : frame.kind.isGrid = draft.cursor.inTable := fits.isGrid_kind
  have behind : after.flatMap (Block.entriesOn draft.cursor.inTable) = [] := fits.entriesOn_after
  have reached (inTable : Bool) : draft.entriesOn inTable =
      draft.parts.flatMap (Part.told (Block.entriesOn inTable)) ++
        (before ++ frame.fill items :: after).flatMap (Block.entriesOn inTable) := by
    rw [entriesOn_eq, ← flatMap_entriesOn_reach, split]
  have edited (change : List Item → List Item) (inTable : Bool) :
      (draft.edit change).entriesOn inTable =
        draft.parts.flatMap (Part.told (Block.entriesOn inTable)) ++
          (before ++ frame.fill (change items) :: after).flatMap (Block.entriesOn inTable) := by
    rw [entriesOn_eq, blocks_edit, split, ← position, modify_between, modifyItems_fill]
    rfl
  have here (items : List Item) : (frame.fill items).entriesOn draft.cursor.inTable =
      inBlock ++ items.map .item := by
    rw [Block.entriesOn, kind_fill, if_pos side, filled]
  have there (items : List Item) : (frame.fill items).entriesOn (!draft.cursor.inTable) = [] :=
    entriesOn_elsewhere (by simp [side])
  refine ⟨draft.parts.flatMap (Part.told (Block.entriesOn draft.cursor.inTable)) ++
    before.flatMap (Block.entriesOn draft.cursor.inTable) ++ inBlock, frame, items, after,
    ⟨?_, ?_, fun change => ?_, fun change => ?_⟩, opened⟩
  · simp [reachedCount, found]
  · simp [reached, here, behind]
  · simp [edited, here, behind]
  · simp [reached, edited, there]

/-- After a change of the open flow, content goes to the same flow. -/
theorem Sound.reach_edit {draft : Draft} (sound : draft.Sound) (change : List Item → List Item) :
    (draft.edit change).reach = ((draft.edit change).blocks, draft.reach.2) := by
  obtain ⟨frame, items, after, ⟨before, split, position⟩, fits⟩ := sound.openAt_reach
  have edited : (draft.edit change).blocks = before ++ frame.fill (change items) :: after := by
    rw [blocks_edit, split, ← position, modify_between, modifyItems_fill]
  cases focus : draft.focus with
  | note index | cell index =>
      have same : (draft.edit change).focus = draft.focus := rfl
      simp only [reach, same, focus]
  | body =>
      rw [focus] at fits
      obtain ⟨⟨alignment, rfl⟩, rfl⟩ := fits
      have same : (draft.edit change).focus = .body := focus
      rw [← position]
      simp [reach, same, edited, Frame.fill]
  | head =>
      rw [focus] at fits
      obtain ⟨rfl, rfl⟩ := fits
      have same : (draft.edit change).focus = .head := focus
      rw [← position]
      simp [reach, same, edited, Frame.fill]

/-- Two changes of the open flow, one after the other, are one change. -/
theorem Sound.edit_edit {draft : Draft} (sound : draft.Sound)
    (first second : List Item → List Item) :
    (draft.edit first).edit second = draft.edit fun items => second (first items) := by
  obtain ⟨frame, items, after, ⟨before, split, position⟩, -⟩ := sound.openAt_reach
  have edited (change : List Item → List Item) :
      (draft.edit change).blocks = before ++ frame.fill (change items) :: after := by
    rw [blocks_edit, split, ← position, modify_between, modifyItems_fill]
  have both : ((draft.edit first).edit second).blocks =
      (draft.edit fun items => second (first items)).blocks := by
    rw [blocks_edit, sound.reach_edit, edited, edited, ← position, modify_between, modifyItems_fill]
  exact congrArg draft.withBlocks both

/-! ### The open link -/

/-- The link that text goes into: the one opened last, when it was not dropped and
stands where content goes. -/
def openLink? (draft : Draft) : Option LinkReference :=
  draft.link.filter (·.block == draft.reach.2)

/-- An item with more runs inside it, if it is a link. -/
def Item.addRuns (runs : List TextRun) : Item → Item
  | .link address hint inside => .link address hint (inside ++ runs)
  | item => item

/-- A draft with more runs in the open link. -/
def fillLink (runs : List TextRun) (draft : Draft) : Draft :=
  match draft.openLink? with
  | none => draft
  | some link => draft.edit (·.modify link.item (·.addRuns runs))

theorem fillLink_of_closed {draft : Draft} (closed : draft.openLink? = none)
    (runs : List TextRun) : draft.fillLink runs = draft := by
  simp [fillLink, closed]

theorem fillLink_of_open {draft : Draft} {link : LinkReference}
    (opened : draft.openLink? = some link) (runs : List TextRun) :
    draft.fillLink runs = draft.edit (·.modify link.item (·.addRuns runs)) := by
  simp [fillLink, opened]

theorem openLink?_of_unlinked {draft : Draft} (unlinked : draft.link = none) :
    draft.openLink? = none := by
  simp [openLink?, unlinked]

/-- Text goes into the open link, or else into the flow. -/
theorem addRun_eq_fillLink (draft : Draft) (run : TextRun) :
    draft.addRun run =
      if draft.openLink?.isSome then draft.fillLink [run] else draft.put (.text run) := by
  have same : (fun item : Item => item.addRuns [run]) = fun item => item.addRun run := by
    funext item
    cases item <;> rfl
  unfold Draft.addRun fillLink openLink?
  cases draft.link with
  | none => rfl
  | some link =>
      by_cases here : link.block = draft.reach.2
      · have opened : Option.filter (·.block == draft.reach.2) (some link) = some link := by
          simp [Option.filter, here]
        simp [here, opened, same]
      · simp [here]

theorem Sound.openLink?_edit {draft : Draft} (sound : draft.Sound)
    (change : List Item → List Item) : (draft.edit change).openLink? = draft.openLink? := by
  unfold openLink?
  rw [sound.reach_edit]
  rfl

/-- The open link is an item of the open flow. -/
theorem Sound.split_openLink {draft : Draft} (sound : draft.Sound) {link : LinkReference}
    (opened : draft.openLink? = some link) {frame : Frame} {items : List Item}
    {after : List Block} (located : OpenAt draft.reach.1 draft.reach.2 frame items after) :
    ∃ front address hint runs back, items = front ++ .link address hint runs :: back ∧
      front.length = link.item := by
  obtain ⟨linked, here⟩ := Option.filter_eq_some_iff.mp opened
  obtain ⟨place, linkAt⟩ := sound.linkAt_reach linked
  have found := located.getElem?
  rw [← beq_iff_eq.mp here] at found
  obtain ⟨front, address, hint, runs, back, split, position, -⟩ := linkAt.items_eq found
  exact ⟨front, address, hint, runs, back, split, position⟩

/-- What waits for later lines makes no difference to the entries. -/
theorem entriesOn_fillLink_registers (draft : Draft) (hint : Option String) (blob : Option Blob)
    (runs : List TextRun) (inTable : Bool) :
    (fillLink runs { draft with hint := hint, blob := blob }).entriesOn inTable =
      (draft.fillLink runs).entriesOn inTable := by
  have same : openLink? { draft with hint := hint, blob := blob } = draft.openLink? := rfl
  cases opened : draft.openLink? with
  | none =>
      rw [fillLink_of_closed opened, fillLink_of_closed (same.trans opened)]
      exact entriesOn_congr rfl rfl
  | some link =>
      rw [fillLink_of_open opened, fillLink_of_open (same.trans opened)]
      exact entriesOn_congr rfl rfl

/-- No more runs in the open link leave the entries as they are. -/
theorem Sound.entriesOn_fillLink_nil {draft : Draft} (sound : draft.Sound) (inTable : Bool) :
    (draft.fillLink []).entriesOn inTable = draft.entriesOn inTable := by
  cases opened : draft.openLink? with
  | none => rw [fillLink_of_closed opened]
  | some link =>
      obtain ⟨front, frame, items, after, last, located⟩ := sound.openLast
      have same : (fun item : Item => item.addRuns []) = id := by
        funext item
        cases item <;> simp [Item.addRuns]
      rw [fillLink_of_open opened, same]
      by_cases side : inTable = draft.cursor.inTable
      · rw [side, last.edited, last.here, List.modify_id]
      · rw [Bool.eq_not_of_ne side, last.elsewhere]

/-- The entries with an item put into the open flow. -/
theorem Sound.entriesOn_put {draft : Draft} (sound : draft.Sound) (item : Item) (inTable : Bool) :
    (draft.put item).entriesOn inTable =
      draft.entriesOn inTable ++
        if draft.cursor.inTable = inTable then [Entry.item item] else [] := by
  obtain ⟨front, frame, items, after, last, -⟩ := sound.openLast
  by_cases side : inTable = draft.cursor.inTable
  · subst side
    rw [Draft.put, last.edited, last.here, if_pos rfl, List.map_append, List.append_assoc]
    rfl
  · rw [if_neg (Ne.symm side), Bool.eq_not_of_ne side, Draft.put, last.elsewhere, List.append_nil]

/-- An item put behind the open link makes no difference to the runs in it. -/
theorem Sound.entriesOn_fillLink_put {draft : Draft} (sound : draft.Sound) (item : Item)
    (runs : List TextRun) (inTable : Bool) :
    ((draft.put item).fillLink runs).entriesOn inTable =
      (draft.fillLink runs).entriesOn inTable ++
        if draft.cursor.inTable = inTable then [Entry.item item] else [] := by
  have stays : (draft.put item).openLink? = draft.openLink? := sound.openLink?_edit _
  cases opened : draft.openLink? with
  | none =>
      rw [fillLink_of_closed opened, fillLink_of_closed (stays.trans opened), sound.entriesOn_put]
  | some link =>
      obtain ⟨front, frame, items, after, last, located⟩ := sound.openLast
      obtain ⟨earlier, address, hint, inside, back, split, position⟩ :=
        sound.split_openLink opened located
      have behind : (items ++ [item]).modify link.item (·.addRuns runs) =
          items.modify link.item (·.addRuns runs) ++ [item] := by
        rw [split, ← position, List.append_assoc, List.cons_append, modify_between, modify_between]
        simp
      rw [fillLink_of_open opened, fillLink_of_open (stays.trans opened), Draft.put,
        sound.edit_edit]
      by_cases side : inTable = draft.cursor.inTable
      · subst side
        rw [last.edited, last.edited, if_pos rfl, behind]
        simp
      · rw [if_neg (Ne.symm side), Bool.eq_not_of_ne side, last.elsewhere, last.elsewhere,
          List.append_nil]

theorem Sound.openLink?_newLink {draft : Draft} (sound : draft.Sound) (line : Directive) :
    (draft.newLink line).openLink? = some ⟨draft.reach.2, draft.reachedCount⟩ := by
  have reached : (draft.newLink line).reach =
      (draft.put (.link line.content.asText draft.hint [])).reach := rfl
  rw [openLink?, reached, Draft.put, sound.reach_edit]
  simp [Draft.newLink]

/-- A link that is opened holds the runs that are added to it. -/
theorem Sound.entriesOn_newLink {draft : Draft} (sound : draft.Sound) (line : Directive)
    (runs : List TextRun) (inTable : Bool) :
    ((draft.newLink line).fillLink runs).entriesOn inTable =
      draft.entriesOn inTable ++
        if draft.cursor.inTable = inTable then
          [Entry.item (.link line.content.asText draft.hint runs)]
        else [] := by
  obtain ⟨front, frame, items, after, last, located⟩ := sound.openLast
  have twice := sound.edit_edit (· ++ [Item.link line.content.asText draft.hint []])
    (·.modify draft.reachedCount (·.addRuns runs))
  have filled : ((draft.newLink line).fillLink runs).entriesOn inTable =
      (draft.edit fun items =>
        (items ++ [Item.link line.content.asText draft.hint []]).modify draft.reachedCount
          (·.addRuns runs)).entriesOn inTable := by
    rw [fillLink_of_open (sound.openLink?_newLink line), ← twice]
    exact entriesOn_congr rfl rfl
  rw [filled]
  by_cases side : inTable = draft.cursor.inTable
  · subst side
    rw [last.edited, last.here, if_pos rfl, last.count, modify_between]
    simp [Item.addRuns]
  · rw [if_neg (Ne.symm side), Bool.eq_not_of_ne side, last.elsewhere, List.append_nil]

end Draft

end Folio
