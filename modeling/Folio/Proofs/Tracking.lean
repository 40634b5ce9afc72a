import Folio.Proofs.Simulation
import Folio.Proofs.Tracker

/-!
# Searching agrees with tracking

The pass looks the destination of content up in the tree, where it finds the last
match in document order; the tracker goes to what was created last.  Both are
led by the same draft, line by line, so they build the same tree and refuse the
same lines, and at each moment the search ends where the reference points.
-/

namespace Folio.Draft

open Markup Render Tracker

/-! ### What a tracker keeps of a draft -/

/-- What was appended last to a section, by the kinds of its blocks. -/
def recent (kinds : List Kind) : Recent :=
  match kinds.getLast? with
  | some .paragraph => .paragraph [kinds.length - 1]
  | some .heading => .heading [kinds.length - 1]
  | _ => .other

/-- A block with its open flow taken out, if it has any. -/
def Block.frame? (block : Block) : Option Frame := block.opened?.map Prod.fst

/-- Where content goes, by the frames of the blocks of a section. -/
def spot? (frames : List (Option Frame)) : Focus → Option Spot
  | .body => some .body
  | .head => some .head
  | .note index | .cell index => do
      let frame ← (frames[index]?).join
      let container ← frame.container?
      return .inside (index :: container) (index :: frame.place)

/-- How many columns, cells and rows a block has, if it is a table. -/
def Block.size? : Block → Option (Nat × Nat × Nat)
  | .grid table => some (table.columns, table.cellCount, table.rows.length)
  | _ => none

/-- A table by its index, given the sizes of the blocks of its section. -/
def openTable? (sizes : List (Option (Nat × Nat × Nat))) (index : Nat) : Option OpenTable :=
  sizes[index]?.bind (·.map fun (columns, cells, rows) => ⟨[index], columns, cells, rows⟩)

/-- The link at a place, and the element that holds it. -/
def openLink (place : Place) : OpenLink := ⟨place.dropLast, place⟩

/-- A tracker whose tree and references stand for a draft, given the body
without sections. -/
structure Leads (opening : Node) (draft : Draft) (tracker : Tracker) : Prop where
  finished :
    tracker.finished =
      { opening with children := opening.children ++ draft.parts.map Part.node }
  current : tracker.current = draft.current.node
  sectionKept : tracker.sectionKept = draft.parts.any Part.isSection
  recent : tracker.recent = Draft.recent (draft.blocks.map Block.kind)
  spot : spot? (draft.blocks.map Block.frame?) draft.focus = some tracker.spot
  table : tracker.table = draft.table.bind (openTable? (draft.blocks.map Block.size?))
  nextNote : tracker.nextNote = draft.nextNote
  link : tracker.link = (draft.link.bind (·.place? draft.blocks)).map openLink
  hint : tracker.hint = draft.hint
  blob : tracker.blob = draft.blob

@[simp]
theorem recent_paragraph (kinds : List Kind) :
    Draft.recent (kinds ++ [.paragraph]) = .paragraph [kinds.length] := by
  simp [Draft.recent]

@[simp]
theorem recent_heading (kinds : List Kind) :
    Draft.recent (kinds ++ [.heading]) = .heading [kinds.length] := by
  simp [Draft.recent]

theorem openLink_eq (index : Nat) (place : Place) (last : Nat) :
    openLink (index :: (place ++ [last])) = ⟨index :: place, index :: (place ++ [last])⟩ := by
  have holder : (index :: place ++ [last]).dropLast = index :: place := List.dropLast_concat
  exact congrArg (OpenLink.mk · _) holder

/-! ### Sizes of tables -/

theorem size?_fill (frame : Frame) (items edited : List Item) :
    (frame.fill items).size? = (frame.fill edited).size? := by
  cases frame with
  | cell columns rows row header inner => simp [Frame.fill, Block.size?, Grid.cellCount]
  | _ => rfl

theorem size?_modifyItems (change : List Item → List Item) (block : Block) :
    (block.modifyItems change).size? = block.size? := by
  unfold Block.modifyItems
  split
  · rfl
  · rename_i frame items opened
    rw [eq_fill_of_opened? opened, size?_fill]

theorem size?_addParagraph (alignment : Alignment) (block : Block) :
    (block.addParagraph alignment).size? = block.size? := by
  unfold Block.addParagraph
  split
  · rfl
  · rename_i frame items opened
    rw [eq_fill_of_opened? opened]
    cases frame with
    | cell columns rows row header inner =>
        simp [Frame.next, Frame.fill, Block.size?, Grid.cellCount]
    | _ => rfl

/-- The table that takes the next cell is no other when blocks are added. -/
theorem Sound.openTable?_append {draft : Draft} (sound : draft.Sound) (more : List Block) :
    draft.table.bind (openTable? ((draft.blocks ++ more).map Block.size?)) =
      draft.table.bind (openTable? (draft.blocks.map Block.size?)) := by
  have last := sound.table
  cases table : draft.table with
  | none => rfl
  | some index =>
      rw [table] at last
      obtain ⟨before, grid, after, split, position, -⟩ := last.split
      have bound : index < (draft.blocks.map Block.size?).length := by
        rw [List.length_map, split, ← position]
        simp
      simp only [Option.bind_some, openTable?, List.map_append,
        List.getElem?_append_left bound]

/-! ### Reaching the destination -/

/-- A note or cell that is open, as a tracker knows it. -/
theorem OpenAt.spot? {blocks : List Block} {index : Nat} {frame : Frame} {items : List Item}
    {after : List Block} (opened : OpenAt blocks index frame items after) {container : Place}
    (contained : frame.container? = some container) {focus : Focus}
    (inside : focus = .note index ∨ focus = .cell index) :
    Draft.spot? (blocks.map Block.frame?) focus =
      some (.inside (index :: container) (index :: frame.place)) := by
  have found : (blocks.map Block.frame?)[index]? = some (some frame) := by
    simp [opened.getElem?, Block.frame?]
  rcases inside with rfl | rfl <;> simp [Draft.spot?, found, contained]

theorem spot?_append {frames : List (Option Frame)} {focus : Focus} {spot : Spot}
    (known : spot? frames focus = some spot) (more : List (Option Frame)) :
    spot? (frames ++ more) focus = some spot := by
  have inside {index : Nat} (focused : focus = .note index ∨ focus = .cell index) :
      (frames ++ more)[index]? = frames[index]? := by
    have bound : index < frames.length := by
      refine Nat.lt_of_not_le fun outside => ?_
      have absent : frames[index]? = none := List.getElem?_eq_none outside
      rcases focused with rfl | rfl <;> simp [spot?, absent] at known
    exact List.getElem?_append_left bound
  cases focus with
  | body => exact known
  | head => exact known
  | note index => simpa only [spot?, inside (.inl rfl)] using known
  | cell index => simpa only [spot?, inside (.inr rfl)] using known

theorem frame?_modifyItems (change : List Item → List Item) (block : Block) :
    (block.modifyItems change).frame? = block.frame? := by
  unfold Block.modifyItems
  split
  · rfl
  · rename_i frame items opened
    simp [Block.frame?, opened]

theorem appendBlock_section {tracker : Tracker} {part : Section}
    (current : tracker.current = part.node) (block : Block) (told : Place → Recent) :
    tracker.appendBlock block.node told =
      ({ tracker with
          current := Section.node { part with blocks := part.blocks ++ [block] }
          recent := told [part.blocks.length] }, [part.blocks.length]) := by
  have grown := section_appendChild part block
  simp only [Tracker.appendBlock, Element.appendAt, Element.at?, Element.modifyAt, current, grown]
  simp

def reached (draft : Draft) (tracker : Tracker) : Tracker :=
  { tracker with
    current := (draft.withBlocks draft.reach.1).current.node
    recent := Draft.recent (draft.reach.1.map Block.kind) }

theorem Leads.reached_eq {opening : Node} {draft : Draft} {tracker : Tracker}
    (leads : Leads opening draft tracker) (unchanged : draft.reach.1 = draft.blocks) :
    draft.reached tracker = tracker := by
  have current : (draft.withBlocks draft.blocks).current.node = tracker.current :=
    leads.current.symm
  rw [reached, unchanged, current, ← leads.recent]

theorem Leads.reached_append {opening : Node} {draft : Draft} {tracker : Tracker}
    (leads : Leads opening draft tracker) {fresh : Block} {told : Place → Recent}
    (grown : draft.reach.1 = draft.blocks ++ [fresh])
    (tells : Draft.recent (draft.blocks.map Block.kind ++ [fresh.kind]) =
      told [draft.blocks.length]) :
    tracker.appendBlock fresh.node told = (draft.reached tracker, [draft.blocks.length]) := by
  rw [appendBlock_section leads.current, reached, grown, List.map_append, List.map_singleton,
    tells]
  rfl

/-- Running text goes to the last block if that is a paragraph. -/
theorem Leads.reach_body {opening : Node} {draft : Draft} {tracker : Tracker}
    (leads : Leads opening draft tracker) (focus : draft.focus = .body) :
    tracker.reach = (draft.reached tracker, [draft.reach.2]) := by
  have spot : tracker.spot = .body := by simpa [spot?, focus] using leads.spot.symm
  have fresh
      (grown : draft.reach = (draft.blocks ++ [.paragraph ⟨.unset, []⟩], draft.blocks.length))
      (other : ∀ place, tracker.recent ≠ .paragraph place) :
      tracker.reach = (draft.reached tracker, [draft.reach.2]) := by
    have grownBlocks : draft.reach.1 = draft.blocks ++ [.paragraph ⟨.unset, []⟩] := by rw [grown]
    have appended : tracker.appendBlock (.new () "p" []) .paragraph = _ :=
      leads.reached_append grownBlocks (by simp [Block.kind])
    rw [Tracker.reach, spot]
    dsimp only
    split
    · exact absurd ‹_› (other _)
    · rw [appended, grown]
  cases last : draft.blocks.getLast? with
  | none =>
      exact fresh (by simp [Draft.reach, focus, last])
        (by simp [leads.recent, Draft.recent, last])
  | some block =>
      cases block with
      | paragraph single =>
          have unchanged : draft.reach = (draft.blocks, draft.blocks.length - 1) := by
            simp [Draft.reach, focus, last]
          have here : tracker.recent = .paragraph [draft.blocks.length - 1] := by
            simp [leads.recent, Draft.recent, last, Block.kind]
          rw [Tracker.reach, spot, here, leads.reached_eq (by rw [unchanged]), unchanged]
      | _ =>
          exact fresh (by simp [Draft.reach, focus, last])
            (by simp [leads.recent, Draft.recent, last, Block.kind])

theorem Leads.reach_head {opening : Node} {draft : Draft} {tracker : Tracker}
    (leads : Leads opening draft tracker) (focus : draft.focus = .head) :
    tracker.reach = (draft.reached tracker, [draft.reach.2]) := by
  have spot : tracker.spot = .head := by simpa [spot?, focus] using leads.spot.symm
  have fresh (grown : draft.reach = (draft.blocks ++ [.heading []], draft.blocks.length))
      (other : ∀ place, tracker.recent ≠ .heading place) :
      tracker.reach = (draft.reached tracker, [draft.reach.2]) := by
    have grownBlocks : draft.reach.1 = draft.blocks ++ [.heading []] := by rw [grown]
    have appended : tracker.appendBlock (.new () "h2" []) .heading = _ :=
      leads.reached_append grownBlocks (by simp [Block.kind])
    rw [Tracker.reach, spot]
    dsimp only
    split
    · exact absurd ‹_› (other _)
    · rw [appended, grown]
  cases last : draft.blocks.getLast? with
  | none =>
      exact fresh (by simp [Draft.reach, focus, last])
        (by simp [leads.recent, Draft.recent, last])
  | some block =>
      cases block with
      | heading items =>
          have unchanged : draft.reach = (draft.blocks, draft.blocks.length - 1) := by
            simp [Draft.reach, focus, last]
          have here : tracker.recent = .heading [draft.blocks.length - 1] := by
            simp [leads.recent, Draft.recent, last, Block.kind]
          rw [Tracker.reach, spot, here, leads.reached_eq (by rw [unchanged]), unchanged]
      | _ =>
          exact fresh (by simp [Draft.reach, focus, last])
            (by simp [leads.recent, Draft.recent, last, Block.kind])

theorem Leads.reach_inside {opening : Node} {draft : Draft} {tracker : Tracker}
    (leads : Leads opening draft tracker) {index : Nat}
    (inside : draft.focus = .note index ∨ draft.focus = .cell index) {frame : Frame}
    {items : List Item} {after : List Block}
    (opened : OpenAt draft.reach.1 draft.reach.2 frame items after)
    (fits : Fits draft.focus.destination frame after) :
    tracker.reach = (draft.reached tracker, draft.reach.2 :: frame.place) := by
  have unchanged : draft.reach = (draft.blocks, index) := by
    rcases inside with focus | focus <;> simp [Draft.reach, focus]
  rw [unchanged] at opened
  obtain ⟨container, contained⟩ := fits.container (Focus.destination_of_inside inside)
  have spot : tracker.spot = .inside (index :: container) (index :: frame.place) :=
    Option.some.inj (leads.spot.symm.trans (opened.spot? contained inside))
  rw [leads.reached_eq (by rw [unchanged]), Tracker.reach, spot, unchanged]

/-- The reference of a tracker points to where content goes. -/
theorem Leads.reach {opening : Node} {draft : Draft} {tracker : Tracker}
    (leads : Leads opening draft tracker) {frame : Frame} {items : List Item}
    {after : List Block} (opened : OpenAt draft.reach.1 draft.reach.2 frame items after)
    (fits : Fits draft.focus.destination frame after) :
    tracker.reach = (draft.reached tracker, draft.reach.2 :: frame.place) := by
  cases focus : draft.focus with
  | body =>
      simp only [focus, Focus.destination, Fits] at fits
      obtain ⟨⟨alignment, rfl⟩, -⟩ := fits
      exact leads.reach_body focus
  | head =>
      simp only [focus, Focus.destination, Fits] at fits
      obtain ⟨rfl, -⟩ := fits
      exact leads.reach_head focus
  | note index => exact leads.reach_inside (.inl focus) opened fits
  | cell index => exact leads.reach_inside (.inr focus) opened fits

/-! ### What each kind of line does -/

theorem Leads.edit {opening : Node} {draft : Draft} {tracker : Tracker}
    (leads : Leads opening draft tracker) (sound : draft.Sound)
    {change : List Item → List Item}
    (stays : ∀ link place, draft.link = some link → LinkAt draft.reach.1 link place →
      LinkAt (draft.edit change).blocks link place) :
    Leads opening (draft.edit change)
      { draft.reached tracker with current := (draft.edit change).current.node } := by
  obtain ⟨more, grown, -⟩ := reach_eq_append draft
  exact {
    finished := leads.finished
    current := rfl
    sectionKept := leads.sectionKept
    recent := by
      rw [blocks_edit, map_modify_of_keeps (kind_modifyItems change)]
      rfl
    spot := by
      rw [blocks_edit, map_modify_of_keeps (frame?_modifyItems change), grown, List.map_append]
      exact spot?_append leads.spot _
    table := by
      rw [blocks_edit, map_modify_of_keeps (size?_modifyItems change), grown]
      exact leads.table.trans (sound.openTable?_append more).symm
    nextNote := leads.nextNote
    link := by
      refine leads.link.trans (congrArg (Option.map openLink) ?_)
      refine (sound.place?_eq fun link place linked linkAt => ?_).symm
      exact stays link place linked (grown ▸ linkAt.append more)
    hint := leads.hint
    blob := leads.blob }

theorem Leads.put {opening : Node} {draft : Draft} {tracker : Tracker}
    (leads : Leads opening draft tracker) (sound : draft.Sound) {item : Item}
    (harmless : ∀ link, draft.link = some link → link.block = draft.reach.2 →
      item.isSilent = true) :
    Leads opening (draft.put item)
      { draft.reached tracker with current := (draft.put item).current.node } :=
  leads.edit sound fun link _ linked linkAt => linkAt.put (harmless link linked)

theorem Leads.append {opening : Node} {draft : Draft} {tracker : Tracker}
    (leads : Leads opening draft tracker) (sound : draft.Sound) {item : Item} {child : Node}
    (puts : ∀ holder, item.put holder = holder.appendChild child) :
    ∃ frame items after, OpenAt draft.reach.1 draft.reach.2 frame items after ∧
      tracker.append child =
        ({ draft.reached tracker with current := (draft.put item).current.node },
          ⟨draft.reach.2 :: frame.place, draft.reach.2 :: (frame.place ++ [width items])⟩) := by
  obtain ⟨frame, items, after, opened, fits⟩ := sound.openAt_reach
  refine ⟨frame, items, after, opened, ?_⟩
  simp only [Tracker.append, leads.reach opened fits, reached, opened.appendAt puts]

theorem Leads.titled_eq {opening : Node} {draft : Draft} {tracker : Tracker}
    (leads : Leads opening draft tracker) (element : Node) :
    tracker.titled element = hinted draft.hint element := by
  rw [← leads.hint]
  rfl

theorem Leads.unlinked {opening : Node} {draft : Draft} {tracker : Tracker}
    (leads : Leads opening draft tracker) :
    Leads opening { draft with link := none } { tracker with link := none } :=
  { leads with link := rfl }

theorem Leads.reset {opening : Node} {draft : Draft} {tracker : Tracker}
    (leads : Leads opening draft tracker) : Leads opening draft.reset tracker.reset :=
  { leads with link := rfl, hint := rfl }

theorem Leads.newLink {opening : Node} {draft : Draft} {tracker : Tracker}
    (leads : Leads opening draft tracker) (sound : draft.Sound) (line : Directive) :
    Leads opening (draft.newLink line) (tracker.newLink line) := by
  have puts (holder : Node) : (Item.link line.content.asText draft.hint []).put holder =
      holder.appendChild (hinted draft.hint (.new () "a" [("href", line.content.asText)])) :=
    rfl
  obtain ⟨frame, items, after, opened, appended⟩ := leads.append sound puts
  have put : Leads opening
      (Draft.put { draft with link := none } (.link line.content.asText draft.hint [])) _ :=
    leads.unlinked.put sound.unlinked fun link linked => by cases linked
  have linkAt := opened.linkAt_put line.content.asText draft.hint
  simp only [Tracker.newLink, leads.titled_eq, appended]
  exact { put with
    link := by
      refine Eq.trans ?_ (congrArg (Option.map openLink) linkAt.place?.symm)
      rw [Option.map_some, openLink_eq]
    hint := rfl }

theorem Leads.newAnchor {opening : Node} {draft : Draft} {tracker : Tracker}
    (leads : Leads opening draft tracker) (sound : draft.Sound) (line : Directive) :
    Leads opening (draft.put (.anchor line.content.asText))
      (tracker.append (.new () "a" [("name", line.content.asText)])).1 := by
  have puts (holder : Node) : (Item.anchor line.content.asText).put holder =
      holder.appendChild (.new () "a" [("name", line.content.asText)]) := rfl
  obtain ⟨frame, items, after, -, appended⟩ := leads.append sound puts
  rw [appended]
  exact leads.put sound fun _ _ _ => rfl

theorem Leads.putImage {opening : Node} {draft : Draft} {tracker : Tracker}
    (leads : Leads opening draft tracker) (sound : draft.Sound) (source : String) :
    Leads opening (draft.put (.image source draft.hint))
      (tracker.append (tracker.titled (.new () "img" [("src", source)]))).1 := by
  have puts (holder : Node) : (Item.image source draft.hint).put holder =
      holder.appendChild (hinted draft.hint (.new () "img" [("src", source)])) := rfl
  obtain ⟨frame, items, after, -, appended⟩ := leads.append sound puts
  rw [leads.titled_eq, appended]
  exact leads.put sound fun _ _ _ => rfl

theorem Leads.newImage {opening : Node} {draft : Draft} {tracker : Tracker}
    (leads : Leads opening draft tracker) (sound : draft.Sound) (line : Directive) :
    Agree (Leads opening) (draft.newImage line) (tracker.newImage line) := by
  unfold Draft.newImage Tracker.newImage
  rw [leads.blob]
  split
  · cases waiting : draft.blob with
    | none => rfl
    | some blob => exact { leads.putImage sound blob.address with blob := rfl, hint := rfl }
  · exact { leads.putImage sound line.content.asText with hint := rfl }

theorem Leads.append_blocks {opening : Node} {draft : Draft} {tracker : Tracker}
    (leads : Leads opening draft tracker) (sound : draft.Sound) (more : List Block)
    {recent : Recent} (tells : Draft.recent ((draft.blocks ++ more).map Block.kind) = recent) :
    Leads opening (draft.withBlocks (draft.blocks ++ more))
      { tracker with
        current := (draft.withBlocks (draft.blocks ++ more)).current.node
        recent := recent } :=
  { leads with
    current := rfl
    recent := tells.symm
    spot := by
      rw [← spot?_append leads.spot (more.map Block.frame?), ← List.map_append]
      rfl
    table := leads.table.trans (sound.openTable?_append more).symm
    link := by
      refine leads.link.trans (congrArg (Option.map openLink) ?_)
      exact (sound.place?_eq fun link place linked linkAt => linkAt.append more).symm }

theorem Leads.newTable {opening : Node} {draft : Draft} {tracker : Tracker}
    (leads : Leads opening draft tracker) (sound : draft.Sound) (line : Directive) :
    Agree (Leads opening) (draft.newTable line) (tracker.newTable line) := by
  unfold Draft.newTable Tracker.newTable
  cases Table.columnCount line.content with
  | error failure => rfl
  | ok columns =>
      have appended : tracker.appendBlock (.new () "table" []) (fun _ => .other) = _ :=
        appendBlock_section leads.current (.grid ⟨columns, []⟩) _
      have others : Draft.recent ((draft.blocks ++ [Block.grid ⟨columns, []⟩]).map Block.kind) =
          .other := by
        simp [Draft.recent, Block.kind]
      have grown := leads.append_blocks sound [.grid ⟨columns, []⟩] others
      simp only [appended]
      exact { grown with
        table := by
          simp [openTable?, withBlocks, Draft.blocks, Block.size?, Grid.cellCount] }

theorem Leads.openNote {opening : Node} {draft : Draft} {tracker : Tracker}
    (leads : Leads opening draft tracker) (sound : draft.Sound)
    (unlinked : draft.link = none) : Leads opening draft.openNote tracker.openNote := by
  have puts (holder : Node) : (Item.marker draft.nextNote).put holder =
      holder.appendChild (Pass.noteMarker draft.nextNote) := rfl
  obtain ⟨frame, items, after, -, marked⟩ := leads.append sound puts
  have harmless : ∀ link, draft.link = some link → link.block = draft.reach.2 →
      (Item.marker draft.nextNote).isSilent = true := fun link linked => by
    simp [unlinked] at linked
  have put : Leads opening (draft.put (.marker draft.nextNote))
      { draft.reached tracker with current := (draft.put (.marker draft.nextNote)).current.node } :=
    leads.put sound harmless
  have appended : Tracker.appendBlock { draft.reached tracker with
        current := (draft.put (.marker draft.nextNote)).current.node }
      (Pass.noteContainer draft.nextNote) (fun _ => .other) = _ :=
    appendBlock_section put.current (.note ⟨draft.nextNote, [⟨.unset, []⟩]⟩) _
  have others : Draft.recent (draft.openNote.blocks.map Block.kind) = .other := by
    simp [Draft.recent, Draft.openNote, withBlocks, Draft.blocks, Block.kind]
  have grown := put.append_blocks (sound.put harmless) [.note ⟨draft.nextNote, [⟨.unset, []⟩]⟩]
    others
  have opened : OpenAt draft.openNote.blocks (draft.put (.marker draft.nextNote)).blocks.length
      (.note draft.nextNote [] .unset) [] [] := ⟨_, rfl, rfl⟩
  simp only [Tracker.openNote, leads.nextNote, marked, appended]
  exact { grown with
    spot := opened.spot? rfl (.inl rfl)
    nextNote := rfl }

/-! ### Cells -/

theorem appendAt_lastRow {part : Section} {before after : List Block} {columns : Nat}
    {rows : List (List Cell)} {row : List Cell}
    (split : part.blocks = before ++ .grid ⟨columns, rows ++ [row]⟩ :: after) (header : Bool) :
    part.node.appendAt [before.length, rows.length] (Table.newCell header) =
      (Section.node { part with
          blocks := before ++ .grid ⟨columns, rows ++ [row ++ [⟨header, [], []⟩]]⟩ :: after },
        [before.length, rows.length, row.length]) := by
  have children : part.node.children = before.map Block.node ++
      Grid.node ⟨columns, rows ++ [row]⟩ :: after.map Block.node := by
    simp [split, Block.node]
  have gridChildren : (Grid.node ⟨columns, rows ++ [row]⟩).children =
      rows.map rowNode ++ rowNode row :: [] := by
    simp [Grid.node]
  have position : (before.map Block.node).length = before.length := List.length_map _
  have rowPosition : (rows.map rowNode).length = rows.length := List.length_map _
  have count : ((part.node.at? [before.length, rows.length]).map
      fun holder => holder.children.length) = some row.length := by
    rw [Element.at?_of_split children position, Element.at?_of_split gridChildren rowPosition]
    simp [Element.at?, rowNode]
  have grown : part.node.modifyAt (·.appendChild (Table.newCell header))
      [before.length, rows.length] =
        Section.node { part with
          blocks := before ++ .grid ⟨columns, rows ++ [row ++ [⟨header, [], []⟩]]⟩ :: after } := by
    have newCell : Cell.node ⟨header, [], []⟩ = Table.newCell header := rfl
    rw [Element.modifyAt_of_split children position,
      Element.modifyAt_of_split gridChildren rowPosition]
    simp [Section.node, Block.node, Element.modifyAt, Element.appendChild, rowNode, Grid.node,
      newCell]
  rw [Element.appendAt, count, grown]
  rfl

theorem appendAt_table {part : Section} {before after : List Block} {grid : Grid}
    (split : part.blocks = before ++ .grid grid :: after) :
    (part.node.appendAt [before.length] (.new () "tr" [])).1 =
      Section.node { part with
          blocks := before ++ .grid { grid with rows := grid.rows ++ [[]] } :: after } := by
  have children : part.node.children =
      before.map Block.node ++ grid.node :: after.map Block.node := by
    simp [split, Block.node]
  have newRow : rowNode [] = .new () "tr" [] := rfl
  rw [Element.appendAt, Element.modifyAt_of_split children (List.length_map _)]
  simp [Section.node, Block.node, Element.modifyAt, Element.appendChild, Grid.node, newRow]

theorem beginRow_grid {part : Section} {before after : List Block} {grid : Grid}
    (split : part.blocks = before ++ .grid grid :: after) (header : Bool) :
    ∃ rows row,
      grid.addCell header = { grid with rows := rows ++ [row ++ [⟨header, [], []⟩]] } ∧
      (rows ++ [row]).flatten.length = grid.cellCount ∧
      OpenTable.beginRow ⟨[before.length], grid.columns, grid.cellCount, grid.rows.length⟩
          part.node =
        (Section.node { part with
            blocks := before ++ .grid { grid with rows := rows ++ [row] } :: after },
          rows.length + 1) := by
  by_cases full : grid.cellCount % grid.columns = 0
  · refine ⟨grid.rows, [], addCell_full header full, by simp [Grid.cellCount], ?_⟩
    rw [OpenTable.beginRow, if_pos full, appendAt_table split]
  · obtain ⟨rows, row, allRows, added⟩ := addCell_begun header full
    refine ⟨rows, row, added, by rw [← allRows]; rfl, ?_⟩
    have unchanged : { grid with rows := rows ++ [row] } = grid := by rw [← allRows]
    rw [OpenTable.beginRow, if_neg full, unchanged, ← split, allRows]
    simp

/-- A tracker puts a cell where the draft puts it, without counting again. -/
theorem Leads.openCell {opening : Node} {draft : Draft} {tracker : Tracker}
    (leads : Leads opening draft tracker) (sound : draft.Sound)
    (unlinked : draft.link = none) (header : Bool) :
    Agree (Leads opening) (draft.openCell header) (tracker.openCell header) := by
  have last := sound.table
  unfold Draft.openCell Tracker.openCell
  rw [leads.table]
  cases table : draft.table with
  | none => rfl
  | some index =>
      rw [table] at last
      obtain ⟨before, grid, after, split, rfl, -⟩ := last.split
      obtain ⟨rows, row, added, count, begun⟩ := beginRow_grid split header
      have known : (some before.length).bind (openTable? (draft.blocks.map Block.size?)) =
          some ⟨[before.length], grid.columns, grid.cellCount, grid.rows.length⟩ := by
        simp [openTable?, split, Block.size?]
      have blocks : draft.blocks.modify before.length (·.addCell header) =
          before ++ .grid (grid.addCell header) :: after := by
        rw [split, modify_between]
        rfl
      have laid : Element.appendAt (Section.node { draft.current with
            blocks := before ++ .grid { grid with rows := rows ++ [row] } :: after })
          [before.length, rows.length] (Table.newCell header) = _ :=
        appendAt_lastRow rfl header
      have place : [before.length] ++ [rows.length + 1 - 1] = [before.length, rows.length] := rfl
      have opened : OpenAt (before ++ .grid (grid.addCell header) :: after) before.length
          (.cell grid.columns rows row header .lead) [] after :=
        ⟨before, by rw [added]; rfl, rfl⟩
      have size : (Block.grid (grid.addCell header)).size? =
          some (grid.columns, grid.cellCount + 1, rows.length + 1) := by
        rw [added, ← count]
        simp [Block.size?, Grid.cellCount, Nat.add_assoc]
      have kinds : (before ++ .grid (grid.addCell header) :: after).map Block.kind =
          draft.blocks.map Block.kind := by
        rw [← blocks, map_modify_of_keeps (kind_addCell header)]
      rw [known]
      simp only [leads.current, begun, place, laid, blocks]
      exact { leads with
        current := by
          rw [added]
          rfl
        recent := leads.recent.trans (congrArg Draft.recent kinds.symm)
        spot := opened.spot? rfl (.inr rfl)
        table := by
          simp [withBlocks, Draft.blocks, table, openTable?, size]
        link := leads.link.trans (by simp [withBlocks, unlinked]) }

theorem Leads.redirect {opening : Node} {draft : Draft} {tracker : Tracker}
    (leads : Leads opening draft tracker) (sound : draft.Sound) (line : Directive) :
    Agree (Leads opening) (draft.redirect line) (tracker.redirect line) := by
  unfold Draft.redirect Tracker.redirect
  cases line.target with
  | missing => rfl
  | unknown name => rfl
  | known destination =>
      cases destination with
      | body => exact { leads.unlinked with spot := rfl }
      | note => exact leads.unlinked.openNote sound.unlinked rfl
      | cell => exact leads.unlinked.openCell sound.unlinked rfl line.header
      | head =>
          exact { leads.unlinked with
            finished := by
              simp [Tracker.body, Element.appendChild, leads.finished, leads.current,
                Draft.openHead, Part.node]
            current := rfl
            sectionKept := by simp [Draft.openHead, Part.isSection]
            recent := rfl
            spot := rfl
            table := rfl
            link := rfl }

theorem Leads.newSection {opening : Node} {draft : Draft} {tracker : Tracker}
    (leads : Leads opening draft tracker) (line : Directive) :
    Leads opening (draft.newSection line) (tracker.newSection line) := by
  -- What is kept of the parts so far, and whether there is a section among them.
  obtain ⟨kept, keptParts, keptNode⟩ :
      ∃ kept,
        (if draft.blocks = [] then draft.parts else draft.parts ++ [.closed draft.current]) =
          kept ∧
        (if tracker.current.hasContent = true then
            (tracker.finished.appendChild tracker.current, true)
          else (tracker.finished, tracker.sectionKept)) =
            ({ opening with children := opening.children ++ kept.map Part.node },
              kept.any Part.isSection) := by
    rw [leads.current, hasContent_section, leads.finished, leads.sectionKept]
    cases blocks : draft.current.blocks with
    | nil => exact ⟨draft.parts, by simp [Draft.blocks, blocks], by simp⟩
    | cons block rest =>
        refine ⟨draft.parts ++ [.closed draft.current], by simp [Draft.blocks, blocks], ?_⟩
        simp [Element.appendChild, Part.node, Part.isSection]
  simp only [Tracker.newSection, Draft.newSection, keptNode, keptParts]
  exact { leads with
    finished := by
      split
      · simp [Element.appendChild, Part.node]
      · rfl
    current := (section_without_blocks line.alignment).symm
    sectionKept := by
      split <;> simp [Part.isSection]
    recent := rfl
    spot := rfl
    table := rfl
    link := rfl }

theorem container?_next (frame : Frame) (items : List Item) (alignment : Alignment) :
    (frame.next items alignment).container? = frame.container? := by
  cases frame <;> rfl

theorem CellFrame.place_next (header : Bool) (frame : CellFrame) (items : List Item)
    (alignment : Alignment) :
    (frame.next items alignment).place =
      [(frame.fill header items).node.children.length] := by
  cases frame with
  | lead =>
      simp [CellFrame.next, CellFrame.place, CellFrame.fill, Cell.node, length_children_flow,
        Table.newCell, Element.new]
  | paragraph front earlier current =>
      simp [CellFrame.next, CellFrame.place, CellFrame.fill, Cell.node, length_children_flow,
        Table.newCell, Element.new]

/-- A paragraph appended to a container comes after everything in it. -/
theorem Frame.place_next (frame : Frame) {container : Place}
    (contained : frame.container? = some container) (items : List Item) (alignment : Alignment) :
    ∃ last, (frame.next items alignment).place = container ++ [last] ∧
      ((frame.fill items).node.at? container).map (fun holder => holder.children.length) =
        some last := by
  cases frame with
  | paragraph current => cases contained
  | heading => cases contained
  | note number earlier current =>
      cases contained
      exact ⟨_, rfl, by simp [Frame.fill, Block.node, Footnote.node, Element.at?]⟩
  | cell columns rows row header inner =>
      cases contained
      refine ⟨(inner.fill header items).node.children.length, ?_, ?_⟩
      · rw [Frame.next, Frame.place, inner.place_next header]
        rfl
      · rw [Frame.fill, Block.node, node_grid, node_row,
          Element.at?_of_split rfl (List.length_map _),
          Element.at?_of_split rfl (List.length_map _)]
        rfl

theorem Leads.newParagraph_inside {opening : Node} {draft : Draft} {tracker : Tracker}
    (leads : Leads opening draft tracker) (sound : draft.Sound) (line : Directive)
    {index : Nat} (inside : draft.focus = .note index ∨ draft.focus = .cell index) :
    Leads opening (draft.newParagraph line) (tracker.newParagraph line) := by
  obtain ⟨frame, items, after, opened, fits⟩ := sound.focus index inside
  obtain ⟨container, contained⟩ := fits.container (Focus.destination_of_inside inside)
  obtain ⟨last, place, count⟩ := frame.place_next contained items line.alignment
  have spot : tracker.spot = .inside (index :: container) (index :: frame.place) :=
    Option.some.inj (leads.spot.symm.trans (opened.spot? contained inside))
  have openedHere : OpenAt draft.current.blocks index frame items after := opened
  have appended : tracker.current.appendAt (index :: container)
      (aligned line.alignment (.new () "p" [])) =
        (Section.node { draft.current with
            blocks := draft.current.blocks.modify index (·.addParagraph line.alignment) },
          index :: (frame.next items line.alignment).place) := by
    obtain ⟨before, children, position⟩ := openedHere.children
    have grown := openedHere.addParagraph contained line.alignment
    rw [paragraphBase] at grown
    rw [Element.appendAt, leads.current, Element.at?_of_split children position, count, grown,
      place]
    rfl
  have next : OpenAt (draft.blocks.modify index (·.addParagraph line.alignment)) index
      (frame.next items line.alignment) [] after := opened.modify (addParagraph_fill _ _ _)
  have paragraphs : draft.newParagraph line =
      { draft.withBlocks (draft.blocks.modify index (·.addParagraph line.alignment)) with
        link := none } := by
    rcases inside with focus | focus <;> simp only [Draft.newParagraph, focus]
  simp only [paragraphs, Tracker.newParagraph, spot, appended]
  exact { leads with
    current := rfl
    recent := by
      have kinds := map_modify_of_keeps (kind_addParagraph line.alignment) index draft.blocks
      exact leads.recent.trans (congrArg Draft.recent kinds.symm)
    spot := next.spot? ((container?_next _ _ _).trans contained) inside
    table := by
      have sizes := map_modify_of_keeps (size?_addParagraph line.alignment) index draft.blocks
      refine leads.table.trans ?_
      rw [← sizes]
      rfl
    link := rfl }

theorem recent_append_paragraph (blocks : List Block) (paragraph : Paragraph) :
    Draft.recent ((blocks ++ [Block.paragraph paragraph]).map Block.kind) =
      .paragraph [blocks.length] := by
  simp [Block.kind]

theorem Leads.newParagraph {opening : Node} {draft : Draft} {tracker : Tracker}
    (leads : Leads opening draft tracker) (sound : draft.Sound) (line : Directive) :
    Leads opening (draft.newParagraph line) (tracker.newParagraph line) := by
  cases focus : draft.focus with
  | note index => exact leads.newParagraph_inside sound line (.inl focus)
  | cell index => exact leads.newParagraph_inside sound line (.inr focus)
  | head =>
      have spot : tracker.spot = .head := by simpa [spot?, focus] using leads.spot.symm
      have appended : tracker.appendBlock (aligned line.alignment (.new () "p" []))
          .paragraph = _ :=
        appendBlock_section leads.current (.paragraph ⟨line.alignment, []⟩) _
      have grown := leads.append_blocks sound [.paragraph ⟨line.alignment, []⟩]
        (recent_append_paragraph _ _)
      simp only [Draft.newParagraph, focus, Tracker.newParagraph, spot, appended]
      exact { grown with
        spot := spot ▸ grown.spot
        link := rfl }
  | body =>
      have spot : tracker.spot = .body := by simpa [spot?, focus] using leads.spot.symm
      have current : (draft.reached tracker).current =
          (draft.withBlocks draft.reach.1).current.node := rfl
      have appended : (draft.reached tracker).appendBlock
          (aligned line.alignment (.new () "p" [])) .paragraph = _ :=
        appendBlock_section current (.paragraph ⟨line.alignment, []⟩) _
      obtain ⟨more, reached, -⟩ := reach_eq_append draft
      have last := recent_append_paragraph draft.reach.1 ⟨line.alignment, []⟩
      rw [reached, List.append_assoc] at last
      have grown := leads.append_blocks sound (more ++ [.paragraph ⟨line.alignment, []⟩]) last
      rw [← List.append_assoc, ← reached] at grown
      simp only [Draft.newParagraph, focus, Tracker.newParagraph, spot, leads.reach_body focus,
        appended]
      exact { grown with
        link := rfl }

theorem Leads.addRun {opening : Node} {draft : Draft} {tracker : Tracker}
    (leads : Leads opening draft tracker) (sound : draft.Sound) (run : TextRun) :
    Leads opening (draft.addRun run) (tracker.addRun run) := by
  obtain ⟨frame, items, after, opened, fits⟩ := sound.openAt_reach
  obtain ⟨target, changed, aimed⟩ := opened.addRun_target sound run
  obtain ⟨change, edits, stays⟩ := draft.addRun_eq_edit run
  have edited := leads.edit sound stays
  rw [← edits] at edited
  have aim : tracker.aim (draft.reach.2 :: frame.place) = target := by
    rw [Tracker.aim, leads.link]
    rcases aimed with ⟨last, rfl, linked⟩ | ⟨rfl, elsewhere⟩
    · simp [linked, openLink_eq]
    · cases linked : draft.link.bind (·.place? draft.blocks) with
      | none => rfl
      | some place =>
          obtain ⟨block, rest, last, rfl, other⟩ := elsewhere place linked
          simp [openLink_eq, other]
  simp only [Tracker.addRun, leads.reach opened fits]
  exact { edited with
    current := (congrArg
      (Element.modifyAt (appendRun run) · (draft.withBlocks draft.reach.1).current.node)
      aim).trans changed }

/-! ### Lines and runs -/

theorem Leads.obey {opening : Node} {draft : Draft} {tracker : Tracker}
    (leads : Leads opening draft tracker) (sound : draft.Sound) (line : Directive) :
    Agree (Leads opening) (draft.obey line) (tracker.obey line) := by
  unfold Draft.obey Tracker.obey
  cases line.kind with
  | newSection => exact leads.newSection line
  | newParagraph => exact leads.newParagraph sound line
  | hint => exact { leads with hint := rfl }
  | link => exact leads.newLink sound line
  | anchor => exact leads.newAnchor sound line
  | blob => exact { leads with blob := rfl }
  | image => exact (leads.newImage sound line).mapError _
  | table => exact leads.newTable sound line
  | destination => exact (leads.redirect sound line).mapError _

/-- A tracker takes a line as the draft that leads it. -/
theorem Leads.step {opening : Node} {draft : Draft} {tracker : Tracker}
    (leads : Leads opening draft tracker) (sound : draft.Sound) (line : Line) :
    Agree (Leads opening) (draft.step line) (tracker.step line) := by
  have ready : Leads opening (if line.resets then draft.reset else draft)
      (if line.resets then tracker.reset else tracker) := by
    split
    · exact leads.reset
    · exact leads
  have readySound := sound.ready line.resets
  cases line with
  | directive line => exact ready.obey readySound line
  | run run => exact ready.addRun readySound run
  | foreign shown => rfl

theorem leads_start (opening : Node) : Leads opening start (.start opening) where
  finished := by
    cases opening
    simp [start, Tracker.start]
  current := rfl
  sectionKept := rfl
  recent := rfl
  spot := rfl
  table := rfl
  nextNote := rfl
  link := rfl
  hint := rfl
  blob := rfl

theorem Leads.body_eq {opening : Node} {draft : Draft} {tracker : Tracker} {pass : Pass}
    (leads : Leads opening draft tracker) (depicts : Depicts opening draft pass) :
    pass.body = tracker.body := by
  rw [Pass.body, Tracker.body, depicts.finished, depicts.current, leads.finished, leads.current]

/-- The search ends where the reference points. -/
theorem Leads.view_eq {opening : Node} {draft : Draft} {tracker : Tracker} {pass : Pass}
    (leads : Leads opening draft tracker) (depicts : Depicts opening draft pass)
    (sound : draft.Sound) : pass.view = tracker.view := by
  obtain ⟨frame, items, after, opened, fits, resolved⟩ := sound.resolve_reach
  rw [Pass.view, Tracker.view, leads.body_eq depicts, depicts.current, depicts.destination,
    resolved, leads.reach opened fits]
  rfl

/-- A pass and a tracker that the same draft stands for are seen alike after each
line. -/
theorem Leads.trace_eq {opening : Node} {draft : Draft} {tracker : Tracker} {pass : Pass}
    (bare : opening.children.any (·.isTagged ["section"]) = false)
    (leads : Leads opening draft tracker) (depicts : Depicts opening draft pass)
    (sound : draft.Sound) (lines : List Line) :
    (pass.trace lines).1.map Pass.view = (tracker.trace lines).1.map Tracker.view ∧
      (pass.trace lines).2.map Pass.body = (tracker.trace lines).2.map Tracker.body := by
  induction lines generalizing draft tracker pass with
  | nil => exact ⟨rfl, congrArg Except.ok (leads.body_eq depicts)⟩
  | cons line rest inductionHypothesis =>
      have passes := depicts.step bare sound line
      have tracks := leads.step sound line
      simp only [Pass.trace, Tracker.trace]
      cases drafted : draft.step line with
      | error failure =>
          rw [drafted] at passes tracks
          rw [passes.of_error, tracks.of_error]
          exact ⟨rfl, rfl⟩
      | ok nextDraft =>
          rw [drafted] at passes tracks
          obtain ⟨nextPass, passed, depicted⟩ := passes.of_ok
          obtain ⟨nextTracker, tracked, led⟩ := tracks.of_ok
          rw [passed, tracked]
          have nextSound := sound.step drafted
          obtain ⟨views, outcomes⟩ := inductionHypothesis led depicted nextSound
          refine ⟨?_, outcomes⟩
          simp only [List.map_cons, views, led.view_eq depicted nextSound]

end Folio.Draft

namespace Folio.Render

/-- Rendering with references and no search is rendering: in front of the first
line and after each line the body is the same, and content goes to the same
element; and a run ends in the same body or the same refusal. -/
theorem trace_tracked (options : Options) (document : Document) :
    (initialPass options document ::
          ((initialPass options document).trace document.lines).1).map Pass.view =
        (Tracker.start (emptyBody options document) ::
          ((Tracker.start (emptyBody options document)).trace document.lines).1).map
            Tracker.view ∧
      ((initialPass options document).trace document.lines).2.map Pass.body =
        ((Tracker.start (emptyBody options document)).trace document.lines).2.map
          Tracker.body := by
  have leads := Draft.leads_start (emptyBody options document)
  have depicts := Draft.depicts_start (emptyBody options document)
  have bare := Draft.bare_emptyBody options document
  obtain ⟨views, outcomes⟩ := leads.trace_eq bare depicts Draft.sound_start document.lines
  refine ⟨?_, outcomes⟩
  have first := leads.view_eq depicts Draft.sound_start
  rw [List.map_cons, List.map_cons]
  exact congr (congrArg List.cons first) views

end Folio.Render
