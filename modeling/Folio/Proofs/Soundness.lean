import Folio.Proofs.Draft

/-!
# Sound drafts

A draft refers to blocks by their indices.  In a sound draft those references
mean what they are for: the block that content for a note goes to is the last
note of the section, the one that content for a cell goes to is the last table
with cells in it, the table that takes the next cell is the last one, and
nothing but images and anchors was appended after the open link.  Every line
keeps a draft sound.
-/

namespace Folio.Draft

open Markup Render

/-- What a block is, apart from what is written in it. -/
inductive Kind where
  | paragraph
  | heading
  | grid (columns : Nat)
  | note
  deriving DecidableEq

def Kind.isGrid : Kind → Bool
  | .grid _ => true
  | _ => false

def Block.kind : Block → Kind
  | .paragraph _ => .paragraph
  | .heading _ => .heading
  | .grid table => .grid table.columns
  | .note _ => .note

def Frame.kind : Frame → Kind
  | .paragraph _ => .paragraph
  | .heading => .heading
  | .cell columns _ _ _ _ => .grid columns
  | .note _ _ _ => .note

def Block.isCellless : Block → Bool
  | .grid table => table.rows.isEmpty
  | _ => true

def Item.isSilent : Item → Bool
  | .anchor _ | .image _ _ => true
  | _ => false

/-- The block at an index is a filled frame, with these blocks after it. -/
def OpenAt (blocks : List Block) (index : Nat) (frame : Frame) (items : List Item)
    (after : List Block) : Prop :=
  ∃ before, blocks = before ++ frame.fill items :: after ∧ before.length = index

/-- A frame that content for a destination may go to, given the blocks after
it. -/
def Fits : Destination → Frame → List Block → Prop
  | .body, frame, after => (∃ alignment, frame = .paragraph alignment) ∧ after = []
  | .head, frame, after => frame = .heading ∧ after = []
  | .note, frame, after =>
      (∃ number earlier alignment, frame = .note number earlier alignment) ∧
        ∀ block ∈ after, block.kind.isGrid = true
  | .cell, frame, after =>
      (∃ columns rows row header inner, frame = .cell columns rows row header inner) ∧
        ∀ block ∈ after, block.isCellless = true

/-- An index is that of the last table; none, when there is no table. -/
def LastGrid (kinds : List Kind) : Option Nat → Prop
  | none => ∀ kind ∈ kinds, kind.isGrid = false
  | some index =>
      ∃ before columns after, kinds = before ++ .grid columns :: after ∧
        before.length = index ∧ ∀ kind ∈ after, kind.isGrid = false

/-- A reference leads to a link with no text after it, and this is its place in
the section. -/
def LinkAt (blocks : List Block) (link : LinkReference) (place : Place) : Prop :=
  ∃ frame front address hint runs back,
    blocks[link.block]? = some (Frame.fill frame (front ++ .link address hint runs :: back)) ∧
      front.length = link.item ∧ (∀ item ∈ back, item.isSilent = true) ∧
      place = link.block :: (frame.place ++ [width front])

/-- References of a draft mean what they are for. -/
structure Sound (draft : Draft) : Prop where
  focus :
    ∀ index, draft.focus = .note index ∨ draft.focus = .cell index →
      ∃ frame items after, OpenAt draft.blocks index frame items after ∧
        Fits draft.focus.destination frame after
  table : LastGrid (draft.blocks.map Block.kind) draft.table
  link : ∀ link, draft.link = some link → ∃ place, LinkAt draft.blocks link place

/-- Content goes to a note or a cell when a block must be open for it. -/
theorem Focus.destination_of_inside {focus : Focus} {index : Nat}
    (inside : focus = .note index ∨ focus = .cell index) :
    focus.destination = .note ∨ focus.destination = .cell := by
  rcases inside with rfl | rfl
  · exact .inl rfl
  · exact .inr rfl

/-! ### Kinds -/

@[simp]
theorem kind_fill (frame : Frame) (items : List Item) : (frame.fill items).kind = frame.kind := by
  cases frame <;> rfl

@[simp]
theorem kind_modifyItems (change : List Item → List Item) (block : Block) :
    (block.modifyItems change).kind = block.kind := by
  unfold Block.modifyItems
  split
  · rfl
  · rename_i frame items opened
    rw [eq_fill_of_opened? opened, kind_fill, kind_fill]

@[simp]
theorem kind_next (frame : Frame) (items : List Item) (alignment : Alignment) :
    (frame.next items alignment).kind = frame.kind := by
  cases frame <;> rfl

@[simp]
theorem kind_addParagraph (alignment : Alignment) (block : Block) :
    (block.addParagraph alignment).kind = block.kind := by
  unfold Block.addParagraph
  split
  · rfl
  · rename_i frame items opened
    rw [eq_fill_of_opened? opened, kind_fill, kind_next, kind_fill]

@[simp]
theorem kind_addCell (header : Bool) (block : Block) :
    (block.addCell header).kind = block.kind := by
  cases block with
  | grid table =>
      simp only [Block.addCell, Block.kind, Grid.addCell]
      split
      · rfl
      · split <;> rfl
  | _ => rfl

theorem map_modify_of_keeps {Thing Told : Type} {tell : Thing → Told} {change : Thing → Thing}
    (keeps : ∀ thing, tell (change thing) = tell thing) (index : Nat) (things : List Thing) :
    (things.modify index change).map tell = things.map tell := by
  induction things generalizing index with
  | nil => simp
  | cons thing rest inductionHypothesis =>
      cases index with
      | zero => simp [keeps]
      | succ index => simp [inductionHypothesis]

/-! ### The last table -/

theorem LastGrid.append {kinds : List Kind} {table : Option Nat} (last : LastGrid kinds table)
    {more : List Kind} (others : ∀ kind ∈ more, kind.isGrid = false) :
    LastGrid (kinds ++ more) table := by
  cases table with
  | none =>
      intro kind member
      rcases List.mem_append.mp member with earlier | added
      · exact last kind earlier
      · exact others kind added
  | some index =>
      obtain ⟨before, columns, after, rfl, position, none⟩ := last
      refine ⟨before, columns, after ++ more, by simp, position, ?_⟩
      intro kind member
      rcases List.mem_append.mp member with earlier | added
      · exact none kind earlier
      · exact others kind added

theorem LastGrid.append_grid (kinds : List Kind) (columns : Nat) :
    LastGrid (kinds ++ [.grid columns]) (some kinds.length) :=
  ⟨kinds, columns, [], rfl, rfl, by simp⟩

theorem LastGrid.split {blocks : List Block} {index : Nat}
    (last : LastGrid (blocks.map Block.kind) (some index)) :
    ∃ before table after, blocks = before ++ .grid table :: after ∧ before.length = index ∧
      ∀ block ∈ after, block.kind.isGrid = false := by
  obtain ⟨kindsBefore, columns, kindsAfter, split, position, none⟩ := last
  obtain ⟨before, rest, rfl, rfl, tail⟩ := List.map_eq_append_iff.mp split
  obtain ⟨block, after, rfl, isGrid, rfl⟩ := List.map_eq_cons_iff.mp tail
  cases block with
  | grid table =>
      refine ⟨before, table, after, rfl, by simpa using position, ?_⟩
      intro block member
      exact none _ (List.mem_map_of_mem member)
  | _ => cases isGrid

/-! ### The open block -/

theorem OpenAt.getElem? {blocks : List Block} {index : Nat} {frame : Frame}
    {items : List Item} {after : List Block} (opened : OpenAt blocks index frame items after) :
    blocks[index]? = some (frame.fill items) := by
  obtain ⟨before, rfl, rfl⟩ := opened
  simp

theorem OpenAt.append {blocks : List Block} {index : Nat} {frame : Frame}
    {items : List Item} {after : List Block} (opened : OpenAt blocks index frame items after)
    (more : List Block) : OpenAt (blocks ++ more) index frame items (after ++ more) := by
  obtain ⟨before, rfl, position⟩ := opened
  exact ⟨before, by simp, position⟩

theorem OpenAt.modify {blocks : List Block} {index : Nat} {frame changed : Frame}
    {items edited : List Item} {after : List Block}
    (opened : OpenAt blocks index frame items after) {change : Block → Block}
    (changes : change (frame.fill items) = changed.fill edited) :
    OpenAt (blocks.modify index change) index changed edited after := by
  obtain ⟨before, rfl, rfl⟩ := opened
  exact ⟨before, by rw [modify_between, changes], rfl⟩

/-- A table put at the end is no obstacle to where content for notes and cells
goes. -/
theorem Fits.append_grid {destination : Destination} {frame : Frame} {after : List Block}
    (fits : Fits destination frame after)
    (inside : destination = .note ∨ destination = .cell) (columns : Nat) :
    Fits destination frame (after ++ [.grid ⟨columns, []⟩]) := by
  rcases inside with rfl | rfl
  · refine ⟨fits.1, fun block member => ?_⟩
    rcases List.mem_append.mp member with earlier | added
    · exact fits.2 block earlier
    · rw [List.mem_singleton.mp added]
      rfl
  · refine ⟨fits.1, fun block member => ?_⟩
    rcases List.mem_append.mp member with earlier | added
    · exact fits.2 block earlier
    · rw [List.mem_singleton.mp added]
      rfl

theorem Fits.next {destination : Destination} {frame : Frame} {after : List Block}
    (fits : Fits destination frame after)
    (inside : destination = .note ∨ destination = .cell) (items : List Item)
    (alignment : Alignment) : Fits destination (frame.next items alignment) after := by
  rcases inside with rfl | rfl
  · obtain ⟨⟨number, earlier, current, rfl⟩, grids⟩ := fits
    exact ⟨⟨_, _, _, rfl⟩, grids⟩
  · obtain ⟨⟨columns, rows, row, header, inner, rfl⟩, cellless⟩ := fits
    exact ⟨⟨_, _, _, _, _, rfl⟩, cellless⟩

theorem Fits.container {destination : Destination} {frame : Frame} {after : List Block}
    (fits : Fits destination frame after)
    (inside : destination = .note ∨ destination = .cell) :
    ∃ container, frame.container? = some container := by
  rcases inside with rfl | rfl
  · obtain ⟨⟨number, earlier, alignment, rfl⟩, -⟩ := fits
    exact ⟨_, rfl⟩
  · obtain ⟨⟨columns, rows, row, header, inner, rfl⟩, -⟩ := fits
    exact ⟨_, rfl⟩

theorem openAt_addCell {blocks : List Block} {index : Nat}
    (last : LastGrid (blocks.map Block.kind) (some index)) (header : Bool) :
    ∃ columns rows row after,
      OpenAt (blocks.modify index (·.addCell header)) index
        (.cell columns rows row header .lead) [] after ∧
      ∀ block ∈ after, block.kind.isGrid = false := by
  obtain ⟨before, table, after, rfl, rfl, none⟩ := last.split
  have filled : ∃ rows row, (Block.grid table).addCell header =
      (Frame.cell table.columns rows row header .lead).fill [] := by
    by_cases full : table.cellCount % table.columns = 0
    · exact ⟨table.rows, [], congrArg Block.grid (addCell_full header full)⟩
    · obtain ⟨rows, row, -, added⟩ := addCell_begun header full
      exact ⟨rows, row, congrArg Block.grid added⟩
  obtain ⟨rows, row, same⟩ := filled
  exact ⟨table.columns, rows, row, after, ⟨before, by rw [modify_between, same], rfl⟩, none⟩

theorem isCellless_of_not_grid {block : Block} (other : block.kind.isGrid = false) :
    block.isCellless = true := by
  cases block with
  | grid table => cases other
  | _ => rfl

/-! ### Reaching the flow that content goes to -/

/-- Reaching adds at most one block, which is no table. -/
theorem reach_eq_append (draft : Draft) :
    ∃ more, draft.reach.1 = draft.blocks ++ more ∧
      ∀ block ∈ more, block.kind.isGrid = false := by
  unfold reach
  split
  · split
    · exact ⟨[], by simp, by simp⟩
    · exact ⟨[.paragraph ⟨.unset, []⟩], rfl, by simp [Block.kind, Kind.isGrid]⟩
  · split
    · exact ⟨[], by simp, by simp⟩
    · exact ⟨[.heading []], rfl, by simp [Block.kind, Kind.isGrid]⟩
  · exact ⟨[], by simp, by simp⟩
  · exact ⟨[], by simp, by simp⟩

/-- In a sound draft content goes to an open flow that fits the destination. -/
theorem Sound.openAt_reach {draft : Draft} (sound : draft.Sound) :
    ∃ frame items after, OpenAt draft.reach.1 draft.reach.2 frame items after ∧
      Fits draft.focus.destination frame after := by
  cases focus : draft.focus with
  | body =>
      simp only [reach, focus]
      split
      · rename_i single last
        obtain ⟨before, split⟩ := List.getLast?_eq_some_iff.mp last
        exact ⟨.paragraph single.alignment, single.items, [],
          ⟨before, split, by simp [split]⟩, ⟨_, rfl⟩, rfl⟩
      · exact ⟨.paragraph .unset, [], [], ⟨draft.blocks, rfl, rfl⟩, ⟨_, rfl⟩, rfl⟩
  | head =>
      simp only [reach, focus]
      split
      · rename_i items last
        obtain ⟨before, split⟩ := List.getLast?_eq_some_iff.mp last
        exact ⟨.heading, items, [], ⟨before, split, by simp [split]⟩, rfl, rfl⟩
      · exact ⟨.heading, [], [], ⟨draft.blocks, rfl, rfl⟩, rfl, rfl⟩
  | note index =>
      simp only [reach, focus]
      simpa [focus] using sound.focus index (.inl focus)
  | cell index =>
      simp only [reach, focus]
      simpa [focus] using sound.focus index (.inr focus)

/-! ### The open link -/

theorem LinkAt.bound {blocks : List Block} {link : LinkReference} {place : Place}
    (linked : LinkAt blocks link place) : link.block < blocks.length := by
  obtain ⟨frame, front, address, hint, runs, back, found, -⟩ := linked
  exact (List.getElem?_eq_some_iff.mp found).1

theorem LinkAt.append {blocks : List Block} {link : LinkReference} {place : Place}
    (linked : LinkAt blocks link place) (more : List Block) :
    LinkAt (blocks ++ more) link place := by
  have bound := linked.bound
  obtain ⟨frame, front, address, hint, runs, back, found, rest⟩ := linked
  refine ⟨frame, front, address, hint, runs, back, ?_, rest⟩
  rw [List.getElem?_append_left bound, found]

/-- An item that adds no text may come after an open link, and any item may come
into another block. -/
theorem LinkAt.put {blocks : List Block} {link : LinkReference} {place : Place}
    (linked : LinkAt blocks link place) {index : Nat} {item : Item}
    (harmless : link.block = index → item.isSilent = true) :
    LinkAt (blocks.modify index (·.modifyItems (· ++ [item]))) link place := by
  obtain ⟨frame, front, address, hint, runs, back, found, position, silent, same⟩ := linked
  by_cases here : link.block = index
  · subst here
    refine ⟨frame, front, address, hint, runs, back ++ [item], ?_, position, ?_, same⟩
    · simp [found]
    · intro later member
      rcases List.mem_append.mp member with earlier | added
      · exact silent later earlier
      · rw [List.mem_singleton.mp added]
        exact harmless rfl
  · refine ⟨frame, front, address, hint, runs, back, ?_, position, silent, same⟩
    rw [List.getElem?_modify_ne _ _ (Ne.symm here), found]

/-- Text inside the link leaves the link where it is. -/
theorem LinkAt.addRun {blocks : List Block} {link : LinkReference} {place : Place}
    (linked : LinkAt blocks link place) (run : TextRun) :
    LinkAt (blocks.modify link.block (·.modifyItems (·.modify link.item (·.addRun run))))
      link place := by
  obtain ⟨frame, front, address, hint, runs, back, found, position, silent, same⟩ := linked
  refine ⟨frame, front, address, hint, runs ++ [run], back, ?_, position, silent, same⟩
  have edited : (front ++ Item.link address hint runs :: back).modify link.item
      (·.addRun run) = front ++ .link address hint (runs ++ [run]) :: back := by
    rw [← position, modify_between]
    rfl
  simp [found, edited]

/-! ### Lines keep a draft sound -/

theorem sound_start : start.Sound where
  focus index inside := by rcases inside with focus | focus <;> cases focus
  table kind member := by cases member
  link link linked := by cases linked

theorem Sound.unlinked {draft : Draft} (sound : draft.Sound) :
    Sound { draft with link := none } where
  focus := sound.focus
  table := sound.table
  link link linked := by cases linked

theorem Sound.reset {draft : Draft} (sound : draft.Sound) : draft.reset.Sound :=
  ⟨sound.focus, sound.table, sound.unlinked.link⟩

theorem blocks_edit (draft : Draft) (change : List Item → List Item) :
    (draft.edit change).blocks =
      draft.reach.1.modify draft.reach.2 (·.modifyItems change) := rfl

/-- Changing the flow that content goes to keeps a draft sound, provided that
the link can still be found. -/
theorem Sound.edit {draft : Draft} (sound : draft.Sound) {change : List Item → List Item}
    (linked : ∀ link, draft.link = some link →
      ∃ place, LinkAt (draft.edit change).blocks link place) :
    (draft.edit change).Sound where
  focus index inside := by
    obtain ⟨frame, items, after, opened, fits⟩ := sound.openAt_reach
    have index_eq : draft.reach.2 = index := by
      rcases inside with focus | focus
      · have focus : draft.focus = .note index := focus
        simp [reach, focus]
      · have focus : draft.focus = .cell index := focus
        simp [reach, focus]
    refine ⟨frame, change items, after, ?_, fits⟩
    rw [blocks_edit, ← index_eq]
    exact opened.modify (modifyItems_fill change frame items)
  table := by
    obtain ⟨more, reached, others⟩ := reach_eq_append draft
    have table : LastGrid (draft.reach.1.map Block.kind) draft.table := by
      rw [reached, List.map_append]
      refine sound.table.append fun kind member => ?_
      obtain ⟨block, added, rfl⟩ := List.mem_map.mp member
      exact others block added
    rw [blocks_edit, map_modify_of_keeps (kind_modifyItems change)]
    exact table
  link := linked

theorem Sound.linkAt_reach {draft : Draft} (sound : draft.Sound) {link : LinkReference}
    (linked : draft.link = some link) : ∃ place, LinkAt draft.reach.1 link place := by
  obtain ⟨place, linkAt⟩ := sound.link link linked
  obtain ⟨more, reached, -⟩ := reach_eq_append draft
  exact ⟨place, reached ▸ linkAt.append more⟩

/-- An item may be put after an open link in its flow when it adds no text. -/
theorem Sound.put {draft : Draft} (sound : draft.Sound) {item : Item}
    (harmless : ∀ link, draft.link = some link → link.block = draft.reach.2 →
      item.isSilent = true) : (draft.put item).Sound := by
  refine sound.edit fun link linked => ?_
  obtain ⟨place, linkAt⟩ := sound.linkAt_reach linked
  exact ⟨place, linkAt.put (harmless link linked)⟩

theorem Sound.addRun {draft : Draft} (sound : draft.Sound) (run : TextRun) :
    (draft.addRun run).Sound := by
  unfold Draft.addRun
  split
  · rename_i unlinked
    exact sound.put fun link linked => by simp [unlinked] at linked
  · rename_i link linked
    split
    · rename_i here
      refine sound.edit fun other otherLinked => ?_
      obtain rfl : link = other := by simpa [linked] using otherLinked
      obtain ⟨place, linkAt⟩ := sound.linkAt_reach linked
      exact ⟨place, by rw [blocks_edit, ← here]; exact linkAt.addRun run⟩
    · rename_i elsewhere
      refine sound.put fun other otherLinked here => ?_
      obtain rfl : link = other := by simpa [linked] using otherLinked
      exact absurd here elsewhere

/-- The link that was put last is found by the number of items in front of
it. -/
theorem OpenAt.linkAt_put {draft : Draft} {frame : Frame} {items : List Item}
    {after : List Block} (opened : OpenAt draft.reach.1 draft.reach.2 frame items after)
    (address : String) (hint : Option String) :
    LinkAt (draft.put (.link address hint [])).blocks ⟨draft.reach.2, draft.reachedCount⟩
      (draft.reach.2 :: (frame.place ++ [width items])) := by
  have count : items.length = draft.reachedCount := by
    simp [reachedCount, opened.getElem?]
  refine ⟨frame, items, address, hint, [], [], ?_, count, by simp, rfl⟩
  rw [Draft.put, blocks_edit, List.getElem?_modify_eq, opened.getElem?]
  simp

theorem Sound.newLink {draft : Draft} (sound : draft.Sound) (line : Directive) :
    (draft.newLink line).Sound := by
  have put : Sound (Draft.put { draft with link := none }
      (.link line.content.asText draft.hint [])) :=
    sound.unlinked.put fun link linked => by cases linked
  refine ⟨put.focus, put.table, fun link linked => ?_⟩
  obtain rfl : (⟨draft.reach.2, draft.reachedCount⟩ : LinkReference) = link :=
    Option.some.inj linked
  obtain ⟨frame, items, after, opened, -⟩ := sound.openAt_reach
  exact ⟨_, opened.linkAt_put line.content.asText draft.hint⟩

theorem Sound.newImage {draft next : Draft} (sound : draft.Sound) {line : Directive}
    (shown : draft.newImage line = .ok next) : next.Sound := by
  have put (source : String) : (draft.put (.image source draft.hint)).Sound :=
    sound.put fun _ _ _ => rfl
  obtain ⟨source, -, -, rfl⟩ := newImage_ok shown
  exact ⟨(put source).focus, (put source).table, (put source).link⟩

theorem Sound.newTable {draft next : Draft} (sound : draft.Sound) {line : Directive}
    (declared : draft.newTable line = .ok next) : next.Sound := by
  obtain ⟨columns, -, rfl⟩ := newTable_ok declared
  refine ⟨?_, ?_, ?_⟩
  · intro index inside
    obtain ⟨frame, items, after, opened, fits⟩ := sound.focus index inside
    exact ⟨frame, items, _, opened.append _,
      fits.append_grid (Focus.destination_of_inside inside) columns⟩
  · have grids := LastGrid.append_grid (draft.blocks.map Block.kind) columns
    simpa [withBlocks, Draft.blocks, Block.kind] using grids
  · intro link linked
    obtain ⟨place, linkAt⟩ := sound.link link linked
    exact ⟨place, linkAt.append _⟩

theorem Sound.openNote {draft : Draft} (sound : draft.Sound) (unlinked : draft.link = none) :
    draft.openNote.Sound := by
  have put : (draft.put (.marker draft.nextNote)).Sound :=
    sound.put fun link linked => by simp [unlinked] at linked
  refine ⟨?_, ?_, ?_⟩
  · intro index inside
    obtain rfl : (draft.put (.marker draft.nextNote)).blocks.length = index := by
      rcases inside with focus | focus
      · cases focus
        rfl
      · cases focus
    exact ⟨.note draft.nextNote [] .unset, [], [], ⟨_, rfl, rfl⟩, ⟨_, _, _, rfl⟩, by simp⟩
  · have others : ∀ kind ∈ [Kind.note], kind.isGrid = false := by simp [Kind.isGrid]
    have table := put.table.append others
    simpa [Draft.openNote, withBlocks, Draft.blocks, Block.kind] using table
  · intro link linked
    exact absurd (unlinked.symm.trans linked) (by simp)

theorem Sound.openCell {draft next : Draft} (sound : draft.Sound)
    (unlinked : draft.link = none) {header : Bool}
    (opens : draft.openCell header = .ok next) : next.Sound := by
  obtain ⟨table, isTable, rfl⟩ := openCell_ok opens
  have last := sound.table
  rw [isTable] at last
  obtain ⟨columns, rows, row, after, opened, none⟩ := openAt_addCell last header
  refine ⟨?_, ?_, ?_⟩
  · intro index inside
    obtain rfl : table = index := by
      rcases inside with focus | focus
      · cases focus
      · cases focus
        rfl
    exact ⟨_, _, after, opened, ⟨_, _, _, _, _, rfl⟩,
      fun block member => isCellless_of_not_grid (none block member)⟩
  · change LastGrid ((draft.blocks.modify table (·.addCell header)).map Block.kind) draft.table
    rw [map_modify_of_keeps (kind_addCell header)]
    exact sound.table
  · intro link linked
    exact absurd (unlinked.symm.trans linked) (by simp)

/-- A section that begins without blocks is sound with any parts before it. -/
theorem sound_of_empty {draft : Draft} (empty : draft.blocks = [])
    (focus : draft.focus = .body ∨ draft.focus = .head) (table : draft.table = none)
    (link : draft.link = none) : draft.Sound where
  focus index inside := by
    rcases focus with outside | outside <;> rcases inside with within | within <;>
      rw [outside] at within <;> cases within
  table := by
    rw [empty, table]
    intro kind member
    cases member
  link other linked := by
    rw [link] at linked
    cases linked

theorem Sound.redirect {draft next : Draft} (sound : draft.Sound) {line : Directive}
    (redirects : draft.redirect line = .ok next) : next.Sound := by
  cases redirects_of_ok redirects with
  | body =>
      refine ⟨?_, sound.table, sound.unlinked.link⟩
      intro index inside
      rcases inside with focus | focus <;> cases focus
  | note => exact sound.unlinked.openNote rfl
  | cell target opens => exact sound.unlinked.openCell rfl opens
  | head => exact sound_of_empty rfl (.inr rfl) rfl rfl

theorem Sound.newParagraph_outside {draft : Draft} (sound : draft.Sound)
    (outside : draft.focus = .body ∨ draft.focus = .head) (more : List Block)
    (others : ∀ block ∈ more, block.kind.isGrid = false) :
    Sound { draft.withBlocks (draft.blocks ++ more) with link := none } where
  focus index inside := by
    rcases outside with focus | focus <;> rcases inside with within | within <;>
      cases focus.symm.trans within
  table := by
    change LastGrid ((draft.blocks ++ more).map Block.kind) draft.table
    rw [List.map_append]
    refine sound.table.append fun kind member => ?_
    obtain ⟨block, added, rfl⟩ := List.mem_map.mp member
    exact others block added
  link link linked := by cases linked

theorem Sound.newParagraph_inside {draft : Draft} (sound : draft.Sound) {index : Nat}
    (inside : draft.focus = .note index ∨ draft.focus = .cell index) (alignment : Alignment) :
    Sound { draft.withBlocks (draft.blocks.modify index (·.addParagraph alignment)) with
      link := none } where
  focus other within := by
    obtain rfl : index = other := by
      rcases inside with focus | focus <;> rcases within with again | again <;>
        cases focus.symm.trans again
      · rfl
      · rfl
    obtain ⟨frame, items, after, opened, fits⟩ := sound.focus index inside
    exact ⟨_, [], after, opened.modify (addParagraph_fill alignment frame items),
      fits.next (Focus.destination_of_inside inside) items alignment⟩
  table := by
    change LastGrid ((draft.blocks.modify index (·.addParagraph alignment)).map Block.kind)
      draft.table
    rw [map_modify_of_keeps (kind_addParagraph alignment)]
    exact sound.table
  link link linked := by cases linked

theorem Sound.newParagraph {draft : Draft} (sound : draft.Sound) (line : Directive) :
    (draft.newParagraph line).Sound := by
  cases focus : draft.focus with
  | body =>
      obtain ⟨more, reached, others⟩ := reach_eq_append draft
      simp only [Draft.newParagraph, focus, reached, List.append_assoc]
      apply sound.newParagraph_outside (.inl focus)
      intro block member
      rcases List.mem_append.mp member with earlier | added
      · exact others block earlier
      · rw [List.mem_singleton.mp added]
        rfl
  | head =>
      simp only [Draft.newParagraph, focus]
      apply sound.newParagraph_outside (.inr focus)
      simp [Block.kind, Kind.isGrid]
  | note index =>
      simp only [Draft.newParagraph, focus]
      exact sound.newParagraph_inside (.inl focus) line.alignment
  | cell index =>
      simp only [Draft.newParagraph, focus]
      exact sound.newParagraph_inside (.inr focus) line.alignment

theorem Sound.obey {draft next : Draft} (sound : draft.Sound) {line : Directive}
    (obeyed : draft.obey line = .ok next) : next.Sound := by
  cases obeys_of_ok obeyed with
  | newSection => exact sound_of_empty rfl (.inl rfl) rfl rfl
  | newParagraph => exact sound.newParagraph line
  | hint | blob => exact ⟨sound.focus, sound.table, sound.link⟩
  | link => exact sound.newLink line
  | anchor => exact sound.put fun _ _ _ => rfl
  | image kind shown => exact sound.newImage shown
  | table kind declared => exact sound.newTable declared
  | destination kind redirects => exact sound.redirect redirects

/-- A draft that a line may have reset before anything else is sound. -/
theorem Sound.ready {draft : Draft} (sound : draft.Sound) (resets : Bool) :
    Sound (if resets then draft.reset else draft) := by
  split
  · exact sound.reset
  · exact sound

theorem Sound.step {draft next : Draft} (sound : draft.Sound) {line : Line}
    (stepped : draft.step line = .ok next) : next.Sound := by
  cases line with
  | directive line => exact (sound.ready _).obey stepped
  | run run =>
      cases stepped
      exact (sound.ready _).addRun run
  | foreign shown => cases stepped

/-- A run of lines keeps a draft sound. -/
theorem Sound.run {draft last : Draft} (sound : draft.Sound) {lines : List Line}
    (ran : draft.run lines = .ok last) : last.Sound :=
  run_keeps (fun sound stepped => sound.step stepped) sound ran

end Folio.Draft
