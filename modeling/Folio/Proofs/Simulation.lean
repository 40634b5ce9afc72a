import Folio.Proofs.Resolution
import Folio.Render.Page

/-!
# Rendering is drafting

A rendering pass and a sound draft that depicts it take every line alike: both
refuse it with the same failure, or both go on, and the draft still depicts the
pass.  So whatever holds of all drafts holds of all rendered trees, and no
search in the tree ever misses.
-/

namespace Folio.Draft

open Markup Render

/-- The place of a link in the section that stands for some blocks. -/
def LinkReference.place? (blocks : List Block) (link : LinkReference) : Option Place :=
  (blocks[link.block]?.bind Block.opened?).map fun (frame, items) =>
    link.block :: (frame.place ++ [width (items.take link.item)])

/-- The register knows the column counts of the tables of a section. -/
def Registered (register : Table.Register) (sectionNumber : Nat) (kinds : List Kind) : Prop :=
  ∀ index columns, kinds[index]? = some (.grid columns) →
    register.columns? ⟨sectionNumber, index⟩ = some columns

/-- A pass whose tree stands for a draft, given the body without sections. -/
structure Depicts (opening : Node) (draft : Draft) (pass : Pass) : Prop where
  finished :
    pass.finished =
      { opening with children := opening.children ++ draft.parts.map Part.node }
  current : pass.current = draft.current.node
  registered : Registered pass.register pass.sectionNumber (draft.blocks.map Block.kind)
  nextNote : pass.nextNote = draft.nextNote
  link : pass.link = draft.link.bind (·.place? draft.blocks)
  hint : pass.hint = draft.hint
  blob : pass.blob = draft.blob
  destination : pass.destination = draft.focus.destination

/-- Two outcomes of a line or a run: the same failure, or a draft and a state
related to it. -/
def Agree {Cause State : Type} (Related : Draft → State → Prop) :
    Except Cause Draft → Except Cause State → Prop
  | .error failure, .error other => failure = other
  | .ok draft, .ok state => Related draft state
  | _, _ => False

theorem Agree.of_error {Cause State : Type} {Related : Draft → State → Prop} {failure : Cause}
    {stated : Except Cause State} (agree : Agree Related (.error failure) stated) :
    stated = .error failure := by
  cases stated with
  | error other => exact congrArg Except.error (Eq.symm agree)
  | ok state => exact agree.elim

theorem Agree.of_ok {Cause State : Type} {Related : Draft → State → Prop} {draft : Draft}
    {stated : Except Cause State} (agree : Agree Related (.ok draft) stated) :
    ∃ state, stated = .ok state ∧ Related draft state := by
  cases stated with
  | error other => exact agree.elim
  | ok state => exact ⟨state, rfl, agree⟩

theorem Agree.of_ok_state {Cause State : Type} {Related : Draft → State → Prop} {state : State}
    {drafted : Except Cause Draft} (agree : Agree Related drafted (.ok state)) :
    ∃ draft, drafted = .ok draft ∧ Related draft state := by
  cases drafted with
  | error failure => exact agree.elim
  | ok draft => exact ⟨draft, rfl, agree⟩

/-! ### Changing the flow that content goes to -/

theorem LinkAt.place? {blocks : List Block} {link : LinkReference} {place : Place}
    (linked : LinkAt blocks link place) : link.place? blocks = some place := by
  obtain ⟨frame, front, address, hint, runs, back, found, position, -, rfl⟩ := linked
  have taken : (front ++ Item.link address hint runs :: back).take link.item = front := by
    rw [← position, List.take_left]
  simp [LinkReference.place?, found, taken]

/-- The link stands where it stood when no change of the blocks moves it. -/
theorem Sound.place?_eq {draft : Draft} (sound : draft.Sound) {changed : List Block}
    (stays : ∀ link place, draft.link = some link → LinkAt draft.blocks link place →
      LinkAt changed link place) :
    draft.link.bind (·.place? changed) = draft.link.bind (·.place? draft.blocks) := by
  cases linked : draft.link with
  | none => rfl
  | some link =>
      obtain ⟨place, linkAt⟩ := sound.link link linked
      simp [linkAt.place?, (stays link place linked linkAt).place?]

theorem Registered.append {register : Table.Register} {sectionNumber : Nat}
    {kinds : List Kind} (registered : Registered register sectionNumber kinds)
    {more : List Kind} (others : ∀ kind ∈ more, kind.isGrid = false) :
    Registered register sectionNumber (kinds ++ more) := by
  intro index columns found
  by_cases earlier : index < kinds.length
  · rw [List.getElem?_append_left earlier] at found
    exact registered index columns found
  · rw [List.getElem?_append_right (by omega)] at found
    cases others _ (List.mem_of_getElem? found)

/-- Reaching the flow and changing it adds no table and removes none. -/
theorem Registered.edit {draft : Draft} {register : Table.Register} {sectionNumber : Nat}
    (registered : Registered register sectionNumber (draft.blocks.map Block.kind))
    (change : List Item → List Item) :
    Registered register sectionNumber ((draft.edit change).blocks.map Block.kind) := by
  obtain ⟨more, reached, others⟩ := reach_eq_append draft
  rw [blocks_edit, map_modify_of_keeps (kind_modifyItems change), reached, List.map_append]
  refine registered.append fun kind member => ?_
  obtain ⟨block, added, rfl⟩ := List.mem_map.mp member
  exact others block added

theorem OpenAt.modifyAt {part : Section} {index : Nat} {frame : Frame} {items : List Item}
    {after : List Block} (opened : OpenAt part.blocks index frame items after)
    {change : Node → Node} {edit : List Item → List Item}
    (changes : change (flow items frame.base) = flow (edit items) frame.base) :
    part.node.modifyAt change (index :: frame.place) =
      Section.node { part with blocks := part.blocks.modify index (·.modifyItems edit) } := by
  obtain ⟨before, split, position⟩ := opened
  have children : part.node.children =
      before.map Block.node ++ (frame.fill items).node :: after.map Block.node := by
    simp [split]
  have edited : part.blocks.modify index (·.modifyItems edit) =
      before ++ frame.fill (edit items) :: after := by
    rw [split, ← position, modify_between, modifyItems_fill]
  rw [Element.modifyAt_of_split children (by simpa using position),
    frame.modifyAt_place changes, edited]
  simp [Section.node]

theorem OpenAt.at? {part : Section} {index : Nat} {frame : Frame} {items : List Item}
    {after : List Block} (opened : OpenAt part.blocks index frame items after) :
    part.node.at? (index :: frame.place) = some (flow items frame.base) := by
  obtain ⟨before, children, position⟩ := opened.children
  rw [Element.at?_of_split children position, frame.at?_place]

/-- Appending an element to the open flow that content goes to is putting its item
there. -/
theorem OpenAt.appendAt {draft : Draft} {frame : Frame} {items : List Item}
    {after : List Block} (opened : OpenAt draft.reach.1 draft.reach.2 frame items after)
    {item : Item} {child : Node} (puts : ∀ holder, item.put holder = holder.appendChild child) :
    (draft.withBlocks draft.reach.1).current.node.appendAt (draft.reach.2 :: frame.place) child =
      ((draft.put item).current.node, draft.reach.2 :: (frame.place ++ [width items])) := by
  have reached : OpenAt (draft.withBlocks draft.reach.1).current.blocks draft.reach.2
      frame items after := opened
  have grown : (draft.withBlocks draft.reach.1).current.node.modifyAt
      (·.appendChild child) (draft.reach.2 :: frame.place) =
        (draft.put item).current.node := by
    refine reached.modifyAt ?_
    rw [flow_append, flow_cons, flow_nil, puts]
  have count : ((draft.withBlocks draft.reach.1).current.node.at?
      (draft.reach.2 :: frame.place)).map (fun holder => holder.children.length) =
        some (width items) := by
    rw [reached.at?]
    simp [length_children_flow]
  simp only [Element.appendAt, count, grown]
  rfl

theorem Depicts.append {opening : Node} {draft : Draft} {pass : Pass}
    (depicts : Depicts opening draft pass) (sound : draft.Sound) {item : Item} {child : Node}
    (puts : ∀ holder, item.put holder = holder.appendChild child) :
    ∃ frame items after, OpenAt draft.reach.1 draft.reach.2 frame items after ∧
      pass.append child =
        .ok ({ pass with current := (draft.put item).current.node },
          draft.reach.2 :: (frame.place ++ [width items])) := by
  obtain ⟨frame, items, after, opened, -, resolved⟩ := sound.resolve_reach
  refine ⟨frame, items, after, opened, ?_⟩
  rw [Pass.append, depicts.current, depicts.destination, resolved]
  simp only [bind, Except.bind, opened.appendAt puts]
  rfl

theorem titled_eq (pass : Pass) (element : Node) :
    pass.titled element = hinted pass.hint element := rfl

/-- A change of the flow that content goes to, provided that the link stays where
it is. -/
theorem Depicts.edit {opening : Node} {draft : Draft} {pass : Pass}
    (depicts : Depicts opening draft pass) (sound : draft.Sound)
    {change : List Item → List Item}
    (stays : ∀ link place, draft.link = some link → LinkAt draft.reach.1 link place →
      LinkAt (draft.edit change).blocks link place) :
    Depicts opening (draft.edit change)
      { pass with current := (draft.edit change).current.node } where
  finished := depicts.finished
  current := rfl
  registered := depicts.registered.edit change
  nextNote := depicts.nextNote
  link := by
    refine depicts.link.trans (sound.place?_eq fun link place linked linkAt => ?_).symm
    obtain ⟨more, reached, -⟩ := reach_eq_append draft
    exact stays link place linked (reached ▸ linkAt.append more)
  hint := depicts.hint
  blob := depicts.blob
  destination := depicts.destination

theorem Depicts.put {opening : Node} {draft : Draft} {pass : Pass}
    (depicts : Depicts opening draft pass) (sound : draft.Sound) {item : Item}
    (harmless : ∀ link, draft.link = some link → link.block = draft.reach.2 →
      item.isSilent = true) :
    Depicts opening (draft.put item)
      { pass with current := (draft.put item).current.node } :=
  depicts.edit sound fun link _ linked linkAt => linkAt.put (harmless link linked)

theorem Depicts.unlinked {opening : Node} {draft : Draft} {pass : Pass}
    (depicts : Depicts opening draft pass) :
    Depicts opening { draft with link := none } { pass with link := none } :=
  { depicts with link := rfl }

theorem Depicts.reset {opening : Node} {draft : Draft} {pass : Pass}
    (depicts : Depicts opening draft pass) : Depicts opening draft.reset pass.reset :=
  { depicts with link := rfl, hint := rfl }

/-! ### What each kind of line does -/

theorem Depicts.newLink {opening : Node} {draft : Draft} {pass : Pass}
    (depicts : Depicts opening draft pass) (sound : draft.Sound) (line : Directive) :
    Agree (Depicts opening) (.ok (draft.newLink line)) (pass.newLink line) := by
  have puts (holder : Node) : (Item.link line.content.asText draft.hint []).put holder =
      holder.appendChild (hinted draft.hint (.new () "a" [("href", line.content.asText)])) :=
    rfl
  obtain ⟨frame, items, after, opened, appended⟩ := depicts.append sound puts
  have put : Depicts opening
      (Draft.put { draft with link := none } (.link line.content.asText draft.hint [])) _ :=
    depicts.unlinked.put sound.unlinked fun link linked => by cases linked
  simp only [Pass.newLink, titled_eq, depicts.hint, appended, bind, Except.bind]
  exact { put with
    link := (opened.linkAt_put _ _).place?.symm
    hint := rfl }

theorem Depicts.newAnchor {opening : Node} {draft : Draft} {pass : Pass}
    (depicts : Depicts opening draft pass) (sound : draft.Sound) (line : Directive) :
    Agree (Depicts opening) (.ok (draft.put (.anchor line.content.asText)))
      (pass.newAnchor line) := by
  have puts (holder : Node) : (Item.anchor line.content.asText).put holder =
      holder.appendChild (.new () "a" [("name", line.content.asText)]) := rfl
  obtain ⟨frame, items, after, -, appended⟩ := depicts.append sound puts
  simp only [Pass.newAnchor, appended, bind, Except.bind]
  exact depicts.put sound fun _ _ _ => rfl

theorem Depicts.putImage {opening : Node} {draft : Draft} {pass : Pass}
    (depicts : Depicts opening draft pass) (sound : draft.Sound) (source : String)
    (blob : Option Blob) :
    Agree (Depicts opening)
      (.ok { draft.put (.image source draft.hint) with blob := blob, hint := none })
      (Except.map (fun appended => { appended.1 with blob := blob, hint := none })
        (pass.append (pass.titled (.new () "img" [("src", source)])))) := by
  have puts (holder : Node) : (Item.image source draft.hint).put holder =
      holder.appendChild (hinted draft.hint (.new () "img" [("src", source)])) := rfl
  obtain ⟨frame, items, after, -, appended⟩ := depicts.append sound puts
  have put : Depicts opening (draft.put (.image source draft.hint)) _ :=
    depicts.put sound fun _ _ _ => rfl
  simp only [titled_eq, depicts.hint, appended, Except.map]
  exact { put with hint := rfl, blob := rfl }

theorem Depicts.newImage {opening : Node} {draft : Draft} {pass : Pass}
    (depicts : Depicts opening draft pass) (sound : draft.Sound) (line : Directive) :
    Agree (Depicts opening) (draft.newImage line) (pass.newImage line) := by
  unfold Draft.newImage Pass.newImage Pass.imageSource
  rw [depicts.blob]
  split
  · cases waiting : draft.blob with
    | none => rfl
    | some blob => exact depicts.putImage sound blob.address none
  · exact depicts.putImage sound line.content.asText draft.blob

theorem Registered.declare {register : Table.Register} {sectionNumber : Nat}
    {kinds : List Kind} (registered : Registered register sectionNumber kinds)
    (columns : Nat) :
    Registered ⟨(⟨sectionNumber, kinds.length⟩, columns) :: register.entries⟩ sectionNumber
      (kinds ++ [.grid columns]) := by
  intro index declared found
  by_cases earlier : index < kinds.length
  · rw [List.getElem?_append_left earlier] at found
    have other : (⟨sectionNumber, index⟩ : Table.Position) ≠ ⟨sectionNumber, kinds.length⟩ := by
      intro same
      have sameIndex : index = kinds.length := congrArg Table.Position.index same
      omega
    rw [Table.Register.columns?, List.lookup_cons, beq_false_of_ne other]
    exact registered index declared found
  · obtain ⟨bound, same⟩ := List.getElem?_eq_some_iff.mp found
    obtain rfl : index = kinds.length := by
      simp at bound
      omega
    simp at same
    simp [Table.Register.columns?, same]

theorem Depicts.newTable {opening : Node} {draft : Draft} {pass : Pass}
    (depicts : Depicts opening draft pass) (sound : draft.Sound) (line : Directive) :
    Agree (Depicts opening) (draft.newTable line) (pass.newTable line) := by
  unfold Draft.newTable Pass.newTable Table.declare
  cases Table.columnCount line.content with
  | error failure => rfl
  | ok columns =>
      have grown : pass.current.appendChild (.new () "table" []) =
          (draft.withBlocks (draft.blocks ++ [.grid ⟨columns, []⟩])).current.node := by
        rw [depicts.current]
        exact section_appendChild draft.current (.grid ⟨columns, []⟩)
      have position : pass.current.children.length =
          (draft.blocks.map Block.kind).length := by
        simp [depicts.current, Draft.blocks]
      simp only [bind, Except.bind, pure, Except.pure, grown, position]
      exact { depicts with
        current := rfl
        registered := by
          have declared := depicts.registered.declare columns
          simpa [withBlocks, Draft.blocks, Block.kind] using declared
        link := depicts.link.trans
          (sound.place?_eq fun link place _ linkAt => linkAt.append _).symm }

/-- A cell counts once: nothing in it is a cell. -/
theorem cellCount_cell (cell : Cell) :
    (cell.node.walk.filter fun (_, found) => found.isTagged Table.cellTags).length = 1 := by
  have tagged : cell.node.isTagged Table.cellTags = true :=
    isTagged_cell cell _ (by decide) (by decide)
  have below : ((Element.walkFrom 0 cell.node.children).filter
      fun (_, found) => found.isTagged Table.cellTags) = [] :=
    Element.filter_walkFrom_eq_nil
      (fun child member => (lacks_below_cell (by decide) cell child member).filter_walk) 0
  rw [Element.walk_eq, List.filter_cons]
  simp only [tagged, if_true, below, List.length_singleton]

theorem cellCount_row (row : List Cell) :
    ((rowNode row).walk.filter fun (_, found) => found.isTagged Table.cellTags).length =
      row.length := by
  have untagged : (rowNode row).isTagged Table.cellTags = false := rfl
  rw [Element.walk_eq, List.filter_cons]
  simp only [untagged, Bool.false_eq_true, if_false]
  rw [Element.length_filter_walkFrom]
  simp [rowNode, Function.comp_def, List.length_flatMap, cellCount_cell, List.map_const']

theorem cellCount_grid (table : Grid) : Table.cellCount table.node = table.cellCount := by
  rw [Table.cellCount, Element.descendants, Element.length_filter_walkFrom]
  simp [Grid.node, Grid.cellCount, Function.comp_def, List.length_flatMap, cellCount_row,
    List.length_flatten]

/-- Laying a cell into the markup is adding it to the rows. -/
theorem layCell_grid (table : Grid) (header : Bool) :
    Table.layCell table.columns (Table.newCell header) table.node =
      (table.addCell header).node := by
  have newRow : Table.layCell.newRow (Table.newCell header) =
      rowNode [⟨header, [], []⟩] := rfl
  have newCell : Cell.node ⟨header, [], []⟩ = Table.newCell header := rfl
  unfold Table.layCell Grid.addCell
  rw [cellCount_grid, newRow]
  rcases List.eq_nil_or_concat table.rows with empty | ⟨earlier, last, split⟩
  · rw [Element.lastChild?_eq_none (by simp [Grid.node, empty]), empty]
    simp [Grid.node, Element.appendChild, empty]
  · rw [List.concat_eq_append] at split
    have children : table.node.children = earlier.map rowNode ++ rowNode last :: [] := by
      simp [Grid.node, split]
    rw [Element.lastChild?_of_split children (List.length_map _) rfl (by simp), split]
    simp only [List.getLast?_append, List.getLast?_singleton, Option.some_or]
    split
    · simp [Grid.node, Element.appendChild, split]
    · rw [children]
      rw [← List.length_map rowNode, modify_between]
      simp [Grid.node, rowNode, Element.appendChild, newCell]

theorem isTagged_table (block : Block) :
    block.node.isTagged ["table"] = block.kind.isGrid := by
  cases block <;> simp [Element.isTagged, Block.tag, Block.kind, Kind.isGrid]

theorem addCell_of_no_table {part : Section} (last : LastGrid (part.blocks.map Block.kind) none)
    (register : Table.Register) (sectionNumber : Nat) (header : Bool) :
    Table.addCell register sectionNumber part.node header = .error .noTable := by
  have none : part.node.lastChild? (·.isTagged ["table"]) = none := by
    apply Element.lastChild?_eq_none
    intro child member
    obtain ⟨block, inPart, rfl⟩ := List.mem_map.mp member
    rw [isTagged_table]
    exact last _ (List.mem_map_of_mem inPart)
  rw [Table.addCell, none]

theorem addCell_section {part : Section} {register : Table.Register} {sectionNumber : Nat}
    (registered : Registered register sectionNumber (part.blocks.map Block.kind))
    {index : Nat} (last : LastGrid (part.blocks.map Block.kind) (some index))
    (header : Bool) :
    Table.addCell register sectionNumber part.node header =
      .ok (Section.node
        { part with blocks := part.blocks.modify index (·.addCell header) }) := by
  obtain ⟨before, table, after, split, position, none⟩ := last.split
  have children : part.node.children =
      before.map Block.node ++ table.node :: after.map Block.node := by
    simp [split, Block.node]
  have found : part.node.lastChild? (·.isTagged ["table"]) = some (index, table.node) := by
    refine Element.lastChild?_of_split children (by simpa using position) rfl ?_
    intro sibling member
    obtain ⟨block, inAfter, rfl⟩ := List.mem_map.mp member
    rw [isTagged_table]
    exact none block inAfter
  have columns : register.columns? ⟨sectionNumber, index⟩ = some table.columns := by
    apply registered
    rw [split, ← position]
    simp [Block.kind]
  have added : part.blocks.modify index (·.addCell header) =
      before ++ .grid (table.addCell header) :: after := by
    rw [split, ← position, modify_between]
    rfl
  have laid : part.node.children.modify index
      (Table.layCell table.columns (Table.newCell header)) =
        before.map Block.node ++ (table.addCell header).node :: after.map Block.node := by
    rw [children, ← position, ← List.length_map Block.node, modify_between, layCell_grid]
  rw [Table.addCell, found]
  simp only [columns, laid, added]
  simp [Section.node, Block.node]

theorem Depicts.openCell {opening : Node} {draft : Draft} {pass : Pass}
    (depicts : Depicts opening draft pass) (sound : draft.Sound)
    (unlinked : draft.link = none) (header : Bool) :
    Agree (Depicts opening) (draft.openCell header)
      (pass.openCell header >>= fun opened => pure { opened with destination := .cell }) := by
  have last := sound.table
  unfold Draft.openCell Pass.openCell
  rw [depicts.current]
  cases table : draft.table with
  | none =>
      rw [table] at last
      rw [addCell_of_no_table last]
      rfl
  | some index =>
      rw [table] at last
      rw [addCell_section depicts.registered last]
      exact { depicts with
        current := rfl
        registered := by
          have kinds := map_modify_of_keeps (kind_addCell header) index draft.blocks
          exact kinds.symm ▸ depicts.registered
        link := depicts.link.trans (by simp [withBlocks, unlinked])
        destination := rfl }

theorem Depicts.openNote {opening : Node} {draft : Draft} {pass : Pass}
    (depicts : Depicts opening draft pass) (sound : draft.Sound)
    (unlinked : draft.link = none) :
    Agree (Depicts opening) (.ok draft.openNote)
      (pass.openNote >>= fun opened => pure { opened with destination := .note }) := by
  have puts (holder : Node) : (Item.marker draft.nextNote).put holder =
      holder.appendChild (Pass.noteMarker draft.nextNote) := rfl
  obtain ⟨frame, items, after, -, appended⟩ := depicts.append sound puts
  have put : Depicts opening (draft.put (.marker draft.nextNote)) _ :=
    depicts.put sound fun link linked => by simp [unlinked] at linked
  simp only [Pass.openNote, depicts.nextNote, appended, bind, Except.bind]
  exact { put with
    current := section_appendChild (draft.put (.marker draft.nextNote)).current
      (.note ⟨draft.nextNote, [⟨.unset, []⟩]⟩)
    registered := by
      have others : ∀ kind ∈ [Kind.note], kind.isGrid = false := by simp [Kind.isGrid]
      have registered := put.registered.append others
      simpa [Draft.openNote, withBlocks, Draft.blocks, Block.kind] using registered
    nextNote := rfl
    link := put.link.trans (by simp [Draft.openNote, Draft.put, Draft.edit, withBlocks, unlinked])
    destination := rfl }

theorem Depicts.redirect {opening : Node} {draft : Draft} {pass : Pass}
    (depicts : Depicts opening draft pass) (sound : draft.Sound) (line : Directive) :
    Agree (Depicts opening) (draft.redirect line) (pass.redirect line) := by
  unfold Draft.redirect Pass.redirect
  cases line.target with
  | missing => rfl
  | unknown name => rfl
  | known destination =>
      cases destination with
      | body => exact { depicts.unlinked with destination := rfl }
      | note => exact depicts.unlinked.openNote sound.unlinked rfl
      | cell => exact depicts.unlinked.openCell sound.unlinked rfl line.header
      | head =>
          exact { depicts.unlinked with
            finished := by
              simp [Pass.openSection, Pass.body, Element.appendChild, depicts.finished,
                depicts.current, Draft.openHead, Part.node]
            current := rfl
            registered := by simp [Registered, Draft.openHead, Draft.blocks]
            destination := rfl }

theorem hasContent_section (part : Section) :
    part.node.hasContent = !part.blocks.isEmpty := by
  rw [Element.hasContent, text_section, children_section, List.isEmpty_map]
  simp

theorem any_section (opening : Node)
    (bare : opening.children.any (·.isTagged ["section"]) = false) (parts : List Part) :
    (opening.children ++ parts.map Part.node).any (·.isTagged ["section"]) =
      parts.any Part.isSection := by
  have isSection (part : Part) : part.node.isTagged ["section"] = part.isSection := by
    cases part with
    | rule => rfl
    | closed part => simp [Part.node, Part.isSection, Element.isTagged]
  simp [List.any_append, bare, List.any_map, Function.comp_def, isSection]

theorem section_without_blocks (alignment : Alignment) :
    Section.node ⟨alignment, []⟩ = aligned alignment emptySection := by
  obtain ⟨attributes, same⟩ := aligned_eq alignment emptySection
  rw [Section.node, same]
  rfl

theorem Depicts.newSection {opening : Node} {draft : Draft} {pass : Pass}
    (bare : opening.children.any (·.isTagged ["section"]) = false)
    (depicts : Depicts opening draft pass) (line : Directive) :
    Depicts opening (draft.newSection line) (pass.newSection line) where
  finished := by
    -- What is kept of the parts so far, and then whether a rule comes after it.
    obtain ⟨kept, keptParts, keptNode⟩ :
        ∃ kept,
          (if draft.blocks = [] then draft.parts else draft.parts ++ [.closed draft.current]) =
            kept ∧
          (if pass.current.hasContent = true then pass.finished.appendChild pass.current
            else pass.finished) =
              { opening with children := opening.children ++ kept.map Part.node } := by
      rw [depicts.current, hasContent_section, depicts.finished]
      cases blocks : draft.current.blocks with
      | nil => exact ⟨draft.parts, by simp [Draft.blocks, blocks], by simp⟩
      | cons block rest =>
          refine ⟨draft.parts ++ [.closed draft.current], by simp [Draft.blocks, blocks], ?_⟩
          simp [Element.appendChild, Part.node]
    simp only [Pass.newSection, Draft.newSection, Pass.openSection, keptParts, keptNode,
      any_section opening bare]
    split
    · simp [Element.appendChild, Part.node]
    · rfl
  current := (section_without_blocks line.alignment).symm
  registered := by simp [Registered, Draft.newSection, Draft.blocks]
  nextNote := depicts.nextNote
  link := rfl
  hint := depicts.hint
  blob := depicts.blob
  destination := rfl

theorem closest?_section (part : Section) :
    part.node.closest? Pass.paragraphContainers [] = some [] := by
  simp [Element.closest?, Element.isTagged, Pass.paragraphContainers]

theorem OpenAt.container_none {part : Section} {index : Nat} {frame : Frame}
    {items : List Item} {after : List Block}
    (opened : OpenAt part.blocks index frame items after) (outside : frame.container? = none) :
    part.node.closest? Pass.paragraphContainers (index :: frame.place) = some [] := by
  obtain ⟨before, children, position⟩ := opened.children
  refine Element.closest?_self_of_split children position ?_ ?_
  · rw [frame.closest?_place, outside]
  · simp [Element.isTagged, Pass.paragraphContainers]

theorem OpenAt.container_some {part : Section} {index : Nat} {frame : Frame}
    {items : List Item} {after : List Block} {container : Place}
    (opened : OpenAt part.blocks index frame items after)
    (inside : frame.container? = some container) :
    part.node.closest? Pass.paragraphContainers (index :: frame.place) =
      some (index :: container) := by
  obtain ⟨before, children, position⟩ := opened.children
  refine Element.closest?_of_split children position ?_
  rw [frame.closest?_place, inside]

/-- The markup of a new paragraph in the note or cell with an open flow. -/
theorem OpenAt.addParagraph {part : Section} {index : Nat} {frame : Frame}
    {items : List Item} {after : List Block} {container : Place}
    (opened : OpenAt part.blocks index frame items after)
    (inside : frame.container? = some container) (alignment : Alignment) :
    part.node.modifyAt (·.appendChild (paragraphBase alignment)) (index :: container) =
      Section.node
        { part with blocks := part.blocks.modify index (·.addParagraph alignment) } := by
  obtain ⟨before, split, position⟩ := opened
  have children : part.node.children =
      before.map Block.node ++ (frame.fill items).node :: after.map Block.node := by
    simp [split]
  have edited : part.blocks.modify index (·.addParagraph alignment) =
      before ++ (frame.next items alignment).fill [] :: after := by
    rw [split, ← position, modify_between, addParagraph_fill]
  rw [Element.modifyAt_of_split children (by simpa using position),
    frame.node_next inside items alignment, edited]
  simp [Section.node]

theorem Registered.reach {draft : Draft} {register : Table.Register} {sectionNumber : Nat}
    (registered : Registered register sectionNumber (draft.blocks.map Block.kind)) :
    Registered register sectionNumber (draft.reach.1.map Block.kind) := by
  obtain ⟨more, reached, others⟩ := reach_eq_append draft
  rw [reached, List.map_append]
  refine registered.append fun kind member => ?_
  obtain ⟨block, added, rfl⟩ := List.mem_map.mp member
  exact others block added

theorem appendParagraph_section (part : Section) (alignment : Alignment) :
    part.node.modifyAt (·.appendChild (aligned alignment (.new () "p" []))) [] =
      Section.node { part with blocks := part.blocks ++ [.paragraph ⟨alignment, []⟩] } :=
  section_appendChild part (.paragraph ⟨alignment, []⟩)

theorem Registered.appendParagraph {register : Table.Register} {sectionNumber : Nat}
    {blocks : List Block}
    (registered : Registered register sectionNumber (blocks.map Block.kind))
    (paragraph : Paragraph) :
    Registered register sectionNumber
      ((blocks ++ [Block.paragraph paragraph]).map Block.kind) := by
  have others : ∀ kind ∈ [Kind.paragraph], kind.isGrid = false := by simp [Kind.isGrid]
  simpa [Block.kind] using registered.append others

theorem Depicts.newParagraph_inside {opening : Node} {draft : Draft} {pass : Pass}
    (depicts : Depicts opening draft pass) (sound : draft.Sound) (line : Directive)
    {index : Nat} (inside : draft.focus = .note index ∨ draft.focus = .cell index) :
    Agree (Depicts opening) (.ok (draft.newParagraph line)) (pass.newParagraph line) := by
  obtain ⟨frame, items, after, opened, fits, resolved⟩ := sound.resolve_reach
  have reached : draft.reach = (draft.blocks, index) := by
    rcases inside with focus | focus <;> simp [reach, focus]
  have notHead : pass.destination ≠ .head := by
    rw [depicts.destination]
    rcases inside with focus | focus <;> simp [focus, Focus.destination]
  have paragraphs : draft.newParagraph line =
      { draft.withBlocks (draft.blocks.modify index (·.addParagraph line.alignment)) with
        link := none } := by
    rcases inside with focus | focus <;> simp only [Draft.newParagraph, focus]
  obtain ⟨container, contained⟩ := fits.container (Focus.destination_of_inside inside)
  simp only [reached] at opened resolved
  have unchanged : draft.withBlocks draft.blocks = draft := rfl
  have openedHere : OpenAt draft.current.blocks index frame items after := opened
  have grown := openedHere.addParagraph contained line.alignment
  unfold Pass.newParagraph
  rw [if_neg notHead, depicts.current, depicts.destination, resolved, unchanged, paragraphs]
  simp only [bind, Except.bind, openedHere.container_some contained, Option.getD_some]
  exact { depicts.unlinked with
    current := grown
    registered := by
      have kinds := map_modify_of_keeps (kind_addParagraph line.alignment) index draft.blocks
      exact kinds.symm ▸ depicts.registered
    link := rfl
    destination := rfl }

theorem Depicts.newParagraph {opening : Node} {draft : Draft} {pass : Pass}
    (depicts : Depicts opening draft pass) (sound : draft.Sound) (line : Directive) :
    Agree (Depicts opening) (.ok (draft.newParagraph line)) (pass.newParagraph line) := by
  cases focus : draft.focus with
  | note index => exact depicts.newParagraph_inside sound line (.inl focus)
  | cell index => exact depicts.newParagraph_inside sound line (.inr focus)
  | head =>
      have isHead : pass.destination = .head := by
        rw [depicts.destination, focus]
        rfl
      unfold Pass.newParagraph
      rw [if_pos isHead, depicts.current]
      simp only [pure, Except.pure, bind, Except.bind, closest?_section, Option.getD_some,
        Draft.newParagraph, focus]
      exact { depicts.unlinked with
        current := appendParagraph_section draft.current line.alignment
        registered := depicts.registered.appendParagraph ⟨line.alignment, []⟩
        link := rfl
        destination := depicts.destination }
  | body =>
      obtain ⟨frame, items, after, opened, fits, resolved⟩ := sound.resolve_reach
      have notHead : pass.destination ≠ .head := by
        rw [depicts.destination, focus]
        simp [Focus.destination]
      have outside : frame.container? = none := by
        simp only [focus, Focus.destination, Fits] at fits
        obtain ⟨⟨alignment, rfl⟩, -⟩ := fits
        rfl
      have reached : OpenAt (draft.withBlocks draft.reach.1).current.blocks draft.reach.2
          frame items after := opened
      unfold Pass.newParagraph
      rw [if_neg notHead, depicts.current, depicts.destination, resolved]
      simp only [bind, Except.bind, reached.container_none outside, Option.getD_some,
        Draft.newParagraph, focus]
      exact { depicts.unlinked with
        current :=
          appendParagraph_section (draft.withBlocks draft.reach.1).current line.alignment
        registered := depicts.registered.reach.appendParagraph ⟨line.alignment, []⟩
        link := rfl
        destination := congrArg Focus.destination focus.symm }

/-- A run inside the open link, which stands in the flow that content goes to. -/
theorem OpenAt.addRun {part : Section} {index : Nat} {frame : Frame}
    {front back : List Item} {address : String} {hint : Option String} {runs : List TextRun}
    {after : List Block}
    (opened : OpenAt part.blocks index frame (front ++ .link address hint runs :: back) after)
    (run : TextRun) :
    part.node.modifyAt (appendRun run) (index :: (frame.place ++ [width front])) =
      Section.node { part with
        blocks :=
          part.blocks.modify index (·.modifyItems (·.modify front.length (·.addRun run))) } := by
  have inside : part.node.modifyAt (appendRun run) ((index :: frame.place) ++ [width front]) =
      part.node.modifyAt (Element.modifyAt (appendRun run) [width front])
        (index :: frame.place) := Element.modifyAt_append _ _ _ _
  rw [← List.cons_append, inside]
  refine opened.modifyAt ?_
  rw [flow_addRun frame.children_base, modify_between]
  rfl

/-- The open flow at an index, as a reference to a link in it tells it. -/
theorem LinkAt.items_eq {blocks : List Block} {link : LinkReference} {place : Place}
    (linked : LinkAt blocks link place) {frame : Frame} {items : List Item}
    (found : blocks[link.block]? = some (frame.fill items)) :
    ∃ front address hint runs back, items = front ++ .link address hint runs :: back ∧
      front.length = link.item ∧ (∀ item ∈ back, item.isSilent = true) ∧
      place = link.block :: (frame.place ++ [width front]) := by
  obtain ⟨other, front, address, hint, runs, back, also, position, silent, same⟩ := linked
  have filled : frame.fill items = other.fill (front ++ .link address hint runs :: back) :=
    Option.some.inj (found.symm.trans also)
  have opened := congrArg Block.opened? filled
  simp only [opened?_fill, Option.some.injEq, Prod.mk.injEq] at opened
  obtain ⟨rfl, rfl⟩ := opened
  exact ⟨front, address, hint, runs, back, rfl, position, silent, same⟩

/-- A run is added by a change of the flow that content goes to, and leaves the
link where it is. -/
theorem addRun_eq_edit (draft : Draft) (run : TextRun) :
    ∃ change, draft.addRun run = draft.edit change ∧
      ∀ link place, draft.link = some link → LinkAt draft.reach.1 link place →
        LinkAt (draft.edit change).blocks link place := by
  cases linked : draft.link with
  | none => exact ⟨_, by rw [Draft.addRun, linked]; rfl, fun link place present => by cases present⟩
  | some link =>
      by_cases here : link.block = draft.reach.2
      · refine ⟨_, by rw [Draft.addRun, linked]; exact if_pos here, ?_⟩
        intro other place present stands
        obtain rfl : link = other := Option.some.inj present
        rw [blocks_edit, ← here]
        exact stands.addRun run
      · refine ⟨_, by rw [Draft.addRun, linked]; exact if_neg here, ?_⟩
        intro other place present stands
        obtain rfl : link = other := Option.some.inj present
        exact stands.put fun same => absurd same here

/-- A run goes into the open link if that stands in the open flow, and to the end
of that flow otherwise. -/
theorem OpenAt.addRun_target {draft : Draft} {frame : Frame} {items : List Item}
    {after : List Block} (opened : OpenAt draft.reach.1 draft.reach.2 frame items after)
    (sound : draft.Sound) (run : TextRun) :
    ∃ target,
      (draft.withBlocks draft.reach.1).current.node.modifyAt (appendRun run) target =
        (draft.addRun run).current.node ∧
      ((∃ last, target = draft.reach.2 :: (frame.place ++ [last]) ∧
          draft.link.bind (·.place? draft.blocks) = some target) ∨
        target = draft.reach.2 :: frame.place ∧
          ∀ place, draft.link.bind (·.place? draft.blocks) = some place →
            ∃ block rest last, place = block :: (rest ++ [last]) ∧ block ≠ draft.reach.2) := by
  have reached : OpenAt (draft.withBlocks draft.reach.1).current.blocks draft.reach.2
      frame items after := opened
  have outside : (draft.withBlocks draft.reach.1).current.node.modifyAt (appendRun run)
      (draft.reach.2 :: frame.place) = (draft.put (.text run)).current.node := by
    refine reached.modifyAt ?_
    rw [flow_append, flow_cons, flow_nil]
    rfl
  cases linked : draft.link with
  | none =>
      refine ⟨_, outside.trans ?_, .inr ⟨rfl, fun place present => by cases present⟩⟩
      simp only [Draft.addRun, linked]
  | some link =>
      obtain ⟨place, linkAt⟩ := sound.link link linked
      by_cases here : link.block = draft.reach.2
      · obtain ⟨more, grown, -⟩ := reach_eq_append draft
        have later : LinkAt draft.reach.1 link place := grown ▸ linkAt.append more
        obtain ⟨front, address, hint, runs, back, rfl, position, -, rfl⟩ :=
          later.items_eq (here ▸ opened.getElem?)
        have changed := reached.addRun run
        refine ⟨_, changed.trans ?_, .inl ⟨_, rfl, here ▸ linkAt.place?⟩⟩
        simp only [Draft.addRun, linked, here, if_true, position]
        rfl
      · refine ⟨_, outside.trans ?_, .inr ⟨rfl, fun other present => ?_⟩⟩
        · simp only [Draft.addRun, linked, here, if_false]
        · obtain rfl : place = other := Option.some.inj (linkAt.place?.symm.trans present)
          obtain ⟨frame, front, address, hint, runs, back, -, -, -, rfl⟩ := linkAt
          exact ⟨_, _, _, rfl, here⟩

/-- Where a pass adds a run, once the destination has been found. -/
theorem addRun_eq {pass : Pass} {current : Node} {place target : Place}
    (resolved : resolve pass.current pass.destination = .ok (current, place))
    (unlinked : pass.link = none → target = place)
    (linked : ∀ link, pass.link = some link →
      target = if place.isPrefixOf link then link else place) (run : TextRun) :
    pass.addRun run =
      .ok { pass with current := current.modifyAt (appendRun run) target } := by
  unfold Pass.addRun
  rw [resolved]
  cases opened : pass.link with
  | none =>
      rw [unlinked opened]
      rfl
  | some link =>
      rw [linked link opened]
      rfl

theorem Depicts.addRun {opening : Node} {draft : Draft} {pass : Pass}
    (depicts : Depicts opening draft pass) (sound : draft.Sound) (run : TextRun) :
    Agree (Depicts opening) (.ok (draft.addRun run)) (pass.addRun run) := by
  obtain ⟨frame, items, after, opened, -, resolved⟩ := sound.resolve_reach
  obtain ⟨target, changed, aimed⟩ := opened.addRun_target sound run
  obtain ⟨change, edits, stays⟩ := draft.addRun_eq_edit run
  have edited := depicts.edit sound stays
  rw [← edits] at edited
  rw [← depicts.current, ← depicts.destination] at resolved
  have unlinked (closed : pass.link = none) : target = draft.reach.2 :: frame.place := by
    rcases aimed with ⟨last, -, linked⟩ | ⟨same, -⟩
    · exact absurd (closed.symm.trans (depicts.link.trans linked)) (by simp)
    · exact same
  have linked (link : Place) (opened : pass.link = some link) :
      target = if (draft.reach.2 :: frame.place).isPrefixOf link then link
        else draft.reach.2 :: frame.place := by
    have stands := depicts.link.symm.trans opened
    rcases aimed with ⟨last, rfl, linked⟩ | ⟨rfl, elsewhere⟩
    · obtain rfl := Option.some.inj (linked.symm.trans stands)
      simp [List.isPrefixOf_iff_prefix]
    · obtain ⟨block, rest, last, rfl, other⟩ := elsewhere link stands
      simp [List.isPrefixOf, Ne.symm other]
  rw [addRun_eq resolved unlinked linked run]
  exact { edited with current := changed }

/-! ### Lines and runs -/

/-- Refusals of both sides are worded alike. -/
theorem Agree.mapError {Cause Other State : Type} {Related : Draft → State → Prop}
    {drafted : Except Cause Draft} {stated : Except Cause State}
    (agree : Agree Related drafted stated) (wording : Cause → Other) :
    Agree Related (drafted.mapError wording) (stated.mapError wording) := by
  cases drafted with
  | error failure =>
      rw [agree.of_error]
      rfl
  | ok draft =>
      obtain ⟨state, rfl, related⟩ := agree.of_ok
      exact related

/-- What the draft tells about a state is told of the outcome as well. -/
theorem Agree.map_eq {Cause State Told : Type} {Related : Draft → State → Prop}
    {drafted : Except Cause Draft} {stated : Except Cause State}
    (agree : Agree Related drafted stated) {ofState : State → Told} {ofDraft : Draft → Told}
    (tells : ∀ draft state, Related draft state → ofState state = ofDraft draft) :
    stated.map ofState = drafted.map ofDraft := by
  cases drafted with
  | error failure =>
      rw [agree.of_error]
      rfl
  | ok draft =>
      obtain ⟨state, rfl, related⟩ := agree.of_ok
      exact congrArg Except.ok (tells draft state related)

theorem Depicts.obey {opening : Node} {draft : Draft} {pass : Pass}
    (bare : opening.children.any (·.isTagged ["section"]) = false)
    (depicts : Depicts opening draft pass) (sound : draft.Sound) (line : Directive) :
    Agree (Depicts opening) (draft.obey line) (pass.obey line) := by
  unfold Draft.obey Pass.obey
  cases line.kind with
  | newSection => exact depicts.newSection bare line
  | newParagraph => exact (depicts.newParagraph sound line).mapError _
  | hint => exact { depicts with hint := rfl }
  | link => exact (depicts.newLink sound line).mapError _
  | anchor => exact (depicts.newAnchor sound line).mapError _
  | blob => exact { depicts with blob := rfl }
  | image => exact (depicts.newImage sound line).mapError _
  | table => exact depicts.newTable sound line
  | destination => exact (depicts.redirect sound line).mapError _

theorem Depicts.step {opening : Node} {draft : Draft} {pass : Pass}
    (bare : opening.children.any (·.isTagged ["section"]) = false)
    (depicts : Depicts opening draft pass) (sound : draft.Sound) (line : Line) :
    Agree (Depicts opening) (draft.step line) (pass.step line) := by
  have ready : Depicts opening (if line.resets then draft.reset else draft)
      (if line.resets then pass.reset else pass) := by
    split
    · exact depicts.reset
    · exact depicts
  have readySound := sound.ready line.resets
  cases line with
  | directive line => exact ready.obey bare readySound line
  | run run => exact (ready.addRun readySound run).mapError _
  | foreign shown => rfl

/-- A pass and a sound draft that depicts it take a run of lines alike. -/
theorem Depicts.run {opening : Node} {draft : Draft} {pass : Pass}
    (bare : opening.children.any (·.isTagged ["section"]) = false)
    (depicts : Depicts opening draft pass) (sound : draft.Sound) (lines : List Line) :
    Agree (Depicts opening) (draft.run lines) (pass.run lines) := by
  induction lines generalizing draft pass with
  | nil => exact depicts
  | cons line rest inductionHypothesis =>
      have stepped := depicts.step bare sound line
      simp only [Draft.run, Pass.run, bind, Except.bind]
      cases drafted : draft.step line with
      | error failure =>
          rw [drafted] at stepped
          rw [stepped.of_error]
          rfl
      | ok nextDraft =>
          rw [drafted] at stepped
          obtain ⟨nextPass, passed, related⟩ := stepped.of_ok
          rw [passed]
          exact inductionHypothesis related (sound.step drafted)

theorem bare_emptyBody (options : Options) (document : Document) :
    (emptyBody options document).children.any (·.isTagged ["section"]) = false := by
  simp only [emptyBody, titleHeading]
  split
  · rfl
  · rfl

theorem depicts_start (opening : Node) : Depicts opening start (.start opening) where
  finished := by
    cases opening
    simp [start, Pass.start]
  current := rfl
  registered := by simp [Registered, start, Draft.blocks]
  nextNote := rfl
  link := rfl
  hint := rfl
  blob := rfl
  destination := rfl

/-- Lines are taken alike by the pass over a document and by a draft. -/
theorem agree_initialPass (options : Options) (document : Document) (lines : List Line) :
    Agree (Depicts (emptyBody options document)) (start.run lines)
      ((initialPass options document).run lines) :=
  (depicts_start _).run (bare_emptyBody options document) sound_start lines

end Folio.Draft

namespace Folio.Render

open Markup

/-- Rendering a document is running a pass over its lines and pruning the page. -/
theorem renderTree_eq_map (options : Options) (document : Document) :
    renderTree options document =
      ((initialPass options document).run document.lines).map fun pass =>
        (assemble (Page.head options.stylesheets document) pass.body).prune.1 := by
  unfold renderTree draftTree
  cases (initialPass options document).run document.lines <;> rfl

end Folio.Render
