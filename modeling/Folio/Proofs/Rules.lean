import Folio.Proofs.Closing
import Folio.Proofs.Joining

/-!
# Rules between sections

A line that begins a section may ask for a rule in front of it, and gets one as soon as
there is an earlier section.  That is judged by the sections there are when the line is
taken; one without content is dropped later, but a rule in front of it or behind it stays.
So the lines of a document fall into stretches at the rules, and a rule stands between two
sections exactly when every stretch leaves something in one of its sections.
-/

namespace Folio

open Markup Render

/-! ### What lines do to sections -/

/-- Whether a line puts something into the current section for which the section stays. -/
def Line.fills : Line → Bool
  | .directive line =>
      match line.kind with
      | .link | .anchor | .image | .table => true
      | .destination => line.target == .known .note
      | _ => false
  | .run _ => true
  | .foreign _ => false

/-- Whether the next section to begin has another one in front of it, for the time being
at least, because of a line. -/
def Line.settles : Line → Bool
  | .directive line =>
      match line.kind with
      | .newParagraph => true
      | .destination => line.target == .known .note || line.target == .known .head
      | _ => (Line.directive line).fills
  | line => line.fills

theorem Line.opensSection_of_asksForRule {line : Line} (asks : line.asksForRule = true) :
    line.opensSection = true := by
  cases line with
  | directive line =>
      rw [asksForRule, Bool.and_eq_true] at asks
      rw [opensSection, asks.1, Bool.true_or]
  | run | foreign => cases asks

theorem Line.settles_of_asksForRule {line : Line} (asks : line.asksForRule = true) :
    line.settles = false := by
  cases line with
  | directive line =>
      rw [asksForRule, Bool.and_eq_true, beq_iff_eq] at asks
      simp [settles, fills, asks.1]
  | run | foreign => cases asks

theorem Line.fills_of_opensSection {line : Line} (opens : line.opensSection = true) :
    line.fills = false := by
  cases line with
  | directive line =>
      simp only [opensSection, Bool.or_eq_true, Bool.and_eq_true, beq_iff_eq] at opens
      rcases opens with kind | ⟨kind, target⟩
      · simp [fills, kind]
      · simp [fills, kind, target]
  | run | foreign => cases opens

/-- The stretches of lines between those that get a rule.  Up to the first line that
settles, no line does. -/
def stretches (lines : List Line) : List (List Line) :=
  (lines.dropWhile (!·.settles)).splitOnP Line.asksForRule

/-- How many sections of a stretch of lines are left. -/
def sectionCount (stretch : List Line) : Nat :=
  (stretch.splitOnP Line.opensSection).countP (·.any Line.fills)

/-- The tags of sections in groups, with a rule between each two groups. -/
def ruledTags (counts : List Nat) : List String :=
  ["hr"].intercalate (counts.map (List.replicate · "section"))

/-- Every rule stands between two sections. -/
def RulesSeparate (tags : List String) : Prop :=
  ∀ before after, tags = before ++ "hr" :: after →
    before.getLast? = some "section" ∧ after.head? = some "section"

namespace Draft

variable {draft next : Draft}

/-! ### What is seen of a draft -/

def Part.tag : Part → String
  | .rule => "hr"
  | .closed _ => "section"

theorem tag_node_part (part : Part) : part.node.tag = part.tag := by
  cases part with
  | rule => rfl
  | closed part => exact tag_section part

/-- The tags of what is left in front of the current section. -/
def leading (draft : Draft) : List String := (keptOf draft.parts).map Part.tag

/-- Whether the current section is left. -/
def isFilled (draft : Draft) : Bool := draft.blocks.any (!·.isVacant)

/-- Whether a new section would have another one in front of it. -/
def isSettled (draft : Draft) : Bool := draft.parts.any Part.isSection || !draft.blocks.isEmpty

theorem isVacant_pruned (block : Block) : block.pruned.isVacant = block.isVacant := by
  cases block <;> rfl

theorem tags_keptOf_current (draft : Draft) :
    (keptOf [.closed draft.current]).map Part.tag =
      if draft.isFilled then ["section"] else [] := by
  have vacant : (Part.pruned (.closed draft.current)).isVacant = !draft.isFilled := by
    rw [Bool.eq_iff_iff]
    simp [Part.pruned, Part.isVacant, Section.isVacant, Section.pruned, isFilled, blocks,
      isVacant_pruned]
  cases filled : draft.isFilled with
  | true =>
      rw [keptOf, List.map_singleton, List.filter_cons_of_pos (by simp [vacant, filled])]
      rfl
  | false => simp [keptOf, vacant, filled]

theorem tags_kept (draft : Draft) :
    draft.kept.map Part.tag = draft.leading ++ if draft.isFilled then ["section"] else [] := by
  rw [kept_eq, keptOf_append, List.map_append, tags_keptOf_current, leading]

/-! ### What a line does to the current section -/

/-- What a line that opens no section does to the blocks of the current one. -/
structure Grows (draft next : Draft) (fills settles : Bool) : Prop where
  filled : next.isFilled = (draft.isFilled || fills)
  occupied : next.blocks.isEmpty = (draft.blocks.isEmpty && !settles)

theorem isEmpty_of_isFilled (filled : draft.isFilled = true) : draft.blocks.isEmpty = false := by
  obtain ⟨block, member, -⟩ := List.any_eq_true.mp filled
  rw [List.isEmpty_eq_false_iff]
  exact List.ne_nil_of_mem member

theorem Grows.of_same (same : next.blocks = draft.blocks) : Grows draft next false false where
  filled := by rw [isFilled, same, isFilled, Bool.or_false]
  occupied := by rw [same, Bool.not_false, Bool.and_true]

theorem Grows.of_filled (filled : next.isFilled = true) : Grows draft next true true where
  filled := by rw [filled, Bool.or_true]
  occupied := by rw [isEmpty_of_isFilled filled, Bool.not_true, Bool.and_false]

theorem Grows.of_both (before : draft.isFilled = true) (after : next.isFilled = true)
    (settles : Bool) : Grows draft next false settles where
  filled := by rw [before, after, Bool.or_false]
  occupied := by rw [isEmpty_of_isFilled before, isEmpty_of_isFilled after, Bool.false_and]

theorem isVacant_fill (frame : Frame) {items : List Item} (nonempty : items ≠ []) :
    (frame.fill items).isVacant = false := by
  cases frame with
  | paragraph alignment => simpa [Frame.fill, Block.isVacant, Paragraph.isVacant] using nonempty
  | heading | note | cell => rfl

theorem isFilled_of_fill {index : Nat} {frame : Frame} {items : List Item}
    (found : draft.blocks[index]? = some (frame.fill items)) (nonempty : items ≠ []) :
    draft.isFilled = true := by
  apply List.any_eq_true.mpr
  exact ⟨_, List.mem_of_getElem? found, by rw [isVacant_fill frame nonempty, Bool.not_false]⟩

/-- Only paragraphs can be vacant. -/
theorem isFilled_of_kind (held : ∃ kind ∈ draft.blocks.map Block.kind, kind ≠ .paragraph) :
    draft.isFilled = true := by
  obtain ⟨kind, member, solid⟩ := held
  obtain ⟨block, inside, rfl⟩ := List.mem_map.mp member
  apply List.any_eq_true.mpr
  refine ⟨block, inside, ?_⟩
  cases block with
  | paragraph single => exact absurd rfl solid
  | heading | grid | note => rfl

theorem isFilled_put (sound : draft.Sound) (item : Item) : (draft.put item).isFilled = true := by
  obtain ⟨frame, items, after, opened, -⟩ := sound.openAt_reach
  have found : (draft.put item).blocks[draft.reach.2]? =
      some (frame.fill (items ++ [item])) := by
    rw [put, blocks_edit, List.getElem?_modify_eq, opened.getElem?]
    simp
  exact isFilled_of_fill found (by simp)

theorem isFilled_addRun (sound : draft.Sound) (run : TextRun) :
    (draft.addRun run).isFilled = true := by
  unfold addRun
  split
  · exact isFilled_put sound (.text run)
  · rename_i link linked
    split
    · rename_i here
      obtain ⟨place, linkAt⟩ := sound.linkAt_reach linked
      obtain ⟨frame, front, address, hint, runs, back, found, -⟩ := linkAt.addRun run
      rw [here] at found
      exact isFilled_of_fill found (by simp)
    · exact isFilled_put sound (.text run)

/-- In a note or a cell a draft has a block that is no paragraph. -/
theorem Sound.kind_inside (sound : draft.Sound) {index : Nat}
    (inside : draft.focus = .note index ∨ draft.focus = .cell index) :
    ∃ kind ∈ draft.blocks.map Block.kind, kind ≠ .paragraph := by
  obtain ⟨frame, items, after, opened, fits⟩ := sound.focus index inside
  refine ⟨frame.kind, ?_, ?_⟩
  · rw [← kind_fill frame items]
    exact List.mem_map_of_mem (List.mem_of_getElem? opened.getElem?)
  · rcases Focus.destination_of_inside inside with destination | destination
    · rw [destination] at fits
      obtain ⟨⟨number, earlier, alignment, rfl⟩, -⟩ := fits
      simp [Frame.kind]
    · rw [destination] at fits
      obtain ⟨⟨columns, rows, row, header, inner, rfl⟩, -⟩ := fits
      simp [Frame.kind]

theorem Grows.of_vacant {more : List Block} (nonempty : more ≠ [])
    (vacant : ∀ block ∈ more, block.isVacant = true) (added : next.blocks = draft.blocks ++ more) :
    Grows draft next false true where
  filled := by
    have none : more.any (!·.isVacant) = false := by simpa using vacant
    rw [isFilled, added, List.any_append, none, isFilled]
  occupied := by simp [added, nonempty]

theorem grows_newParagraph (sound : draft.Sound) (line : Directive) :
    Grows draft (draft.newParagraph line) false true := by
  have vacant : ∀ block ∈ [Block.paragraph ⟨line.alignment, []⟩], block.isVacant = true := by
    intro block member
    rw [List.mem_singleton.mp member]
    rfl
  have inside {index : Nat} (within : draft.focus = .note index ∨ draft.focus = .cell index)
      (added : (draft.newParagraph line).blocks =
        draft.blocks.modify index (·.addParagraph line.alignment)) :
      Grows draft (draft.newParagraph line) false true := by
    have held := sound.kind_inside within
    refine .of_both (isFilled_of_kind held) (isFilled_of_kind ?_) true
    rwa [added, map_modify_of_keeps (kind_addParagraph line.alignment)]
  cases focus : draft.focus with
  | body =>
      have reached : draft.reach.1 = draft.blocks ∨
          draft.reach.1 = draft.blocks ++ [.paragraph ⟨.unset, []⟩] := by
        simp only [reach, focus]
        split
        · exact .inl rfl
        · exact .inr rfl
      have added : (draft.newParagraph line).blocks =
          draft.reach.1 ++ [.paragraph ⟨line.alignment, []⟩] := by
        simp only [newParagraph, focus]
        rfl
      rcases reached with same | more
      · exact .of_vacant (List.cons_ne_nil _ _) vacant (by rw [added, same])
      · have both : ∀ block ∈ [Block.paragraph ⟨.unset, []⟩, .paragraph ⟨line.alignment, []⟩],
            block.isVacant = true := List.forall_mem_cons.mpr ⟨rfl, vacant⟩
        exact .of_vacant (List.cons_ne_nil _ _) both (by rw [added, more, List.append_assoc]; rfl)
  | head =>
      refine .of_vacant (List.cons_ne_nil _ _) vacant ?_
      simp only [newParagraph, focus]
      rfl
  | note index => exact inside (.inl focus) (by simp only [newParagraph, focus]; rfl)
  | cell index => exact inside (.inr focus) (by simp only [newParagraph, focus]; rfl)

theorem grows_openCell {header : Bool} (sound : draft.Sound)
    (opens : draft.openCell header = .ok next) : Grows draft next false false := by
  obtain ⟨index, isTable, rfl⟩ := openCell_ok opens
  have held : ∃ kind ∈ draft.blocks.map Block.kind, kind ≠ .paragraph := by
    have last := sound.table
    rw [isTable] at last
    obtain ⟨before, columns, after, split, -⟩ := last
    exact ⟨.grid columns, by simp [split], by simp⟩
  refine .of_both (isFilled_of_kind held) (isFilled_of_kind ?_) false
  have same : (draft.blocks.modify index (·.addCell header)).map Block.kind =
      draft.blocks.map Block.kind := map_modify_of_keeps (kind_addCell header) index draft.blocks
  exact same ▸ held

theorem isFilled_openNote (draft : Draft) : draft.openNote.isFilled = true := by
  apply isFilled_of_kind
  refine ⟨.note, ?_, by simp⟩
  simp [openNote, withBlocks, blocks, Block.kind]

theorem grows_redirect {line : Directive} (sound : draft.Sound)
    (redirects : draft.redirect line = .ok next) (other : line.target ≠ .known .head) :
    Grows draft next (line.target == .known .note) (line.target == .known .note) := by
  cases redirects_of_ok redirects with
  | body target =>
      rw [target]
      exact .of_same rfl
  | note target =>
      rw [target]
      exact .of_filled (isFilled_openNote _)
  | cell target opens =>
      rw [target]
      have grows := grows_openCell sound.unlinked opens
      exact ⟨grows.filled, grows.occupied⟩
  | head target => exact absurd target other

theorem grows_obey {line : Directive} (sound : draft.Sound) (obeyed : draft.obey line = .ok next)
    (opensNone : (Line.directive line).opensSection = false) :
    Grows draft next (Line.directive line).fills (Line.directive line).settles := by
  cases obeys_of_ok obeyed with
  | newSection kind => simp [Line.opensSection, kind] at opensNone
  | newParagraph kind =>
      simp only [Line.settles, Line.fills, kind]
      exact grows_newParagraph sound line
  | hint kind | blob kind =>
      simp only [Line.settles, Line.fills, kind]
      exact .of_same rfl
  | link kind =>
      simp only [Line.settles, Line.fills, kind]
      exact .of_filled (isFilled_put sound (.link line.content.asText draft.hint []))
  | anchor kind =>
      simp only [Line.settles, Line.fills, kind]
      exact .of_filled (isFilled_put sound _)
  | image kind shown =>
      obtain ⟨source, -, -, rfl⟩ := newImage_ok shown
      simp only [Line.settles, Line.fills, kind]
      exact .of_filled (isFilled_put sound (.image source draft.hint))
  | table kind declared =>
      obtain ⟨columns, -, rfl⟩ := newTable_ok declared
      simp only [Line.settles, Line.fills, kind]
      refine .of_filled (isFilled_of_kind ⟨.grid columns, ?_, by simp⟩)
      simp [withBlocks, blocks, Block.kind]
  | destination kind redirects =>
      have other : line.target ≠ .known .head := by
        simpa [Line.opensSection, kind] using opensNone
      simp only [Line.settles, Line.fills, kind, beq_false_of_ne other, Bool.or_false]
      exact grows_redirect sound redirects other

/-- A line that opens no section takes nothing out of the current one, and fills it by what
it puts there. -/
theorem Sound.grows_step (sound : draft.Sound) {line : Line} (stepped : draft.step line = .ok next)
    (opensNone : line.opensSection = false) : Grows draft next line.fills line.settles := by
  obtain ⟨ready, isReady⟩ : ∃ ready, (if line.resets then draft.reset else draft) = ready :=
    ⟨_, rfl⟩
  have readied : ready.blocks = draft.blocks ∧ ready.Sound := by
    rw [← isReady]
    exact ⟨by split <;> rfl, sound.ready line.resets⟩
  simp only [Draft.step, isReady] at stepped
  have grows : Grows ready next line.fills line.settles := by
    cases line with
    | foreign shown => cases stepped
    | run run =>
        cases stepped
        exact .of_filled (isFilled_addRun readied.2 run)
    | directive line => exact grows_obey readied.2 stepped opensNone
  have same : ready.isFilled = draft.isFilled := by rw [isFilled, readied.1, isFilled]
  exact ⟨same ▸ grows.filled, readied.1 ▸ grows.occupied⟩

/-! ### What a line does that opens a section -/

theorem isSection_closedParts (draft : Draft) :
    draft.closedParts.any Part.isSection = draft.isSettled := by
  unfold closedParts isSettled
  split
  · rename_i empty
    simp [empty]
  · rename_i nonempty
    simp [nonempty, Part.isSection]

/-- What a line that opens a section leaves in front of it: what is left of the sections so
far, and a rule if one is asked for and there are such sections. -/
structure Opens (draft next : Draft) (asks settles : Bool) : Prop where
  leading : next.leading = draft.kept.map Part.tag ++ if asks && draft.isSettled then ["hr"] else []
  empty : next.blocks = []
  settled : next.parts.any Part.isSection = (draft.isSettled || settles)

theorem parts_newSection (draft : Draft) (line : Directive) :
    (draft.newSection line).parts =
      draft.closedParts ++ if line.breakBefore && draft.isSettled then [.rule] else [] := by
  have ruled : (draft.newSection line).parts =
      if line.breakBefore && draft.closedParts.any Part.isSection then
        draft.closedParts ++ [.rule]
      else draft.closedParts := rfl
  rw [ruled, isSection_closedParts]
  split
  · rfl
  · rw [List.append_nil]

theorem opens_newSection (draft : Draft) (line : Directive) :
    Opens draft (draft.newSection line) line.breakBefore false where
  leading := by
    rw [leading, parts_newSection, keptOf_append, List.map_append, keptOf_closedParts]
    split <;> rfl
  empty := rfl
  settled := by
    rw [parts_newSection, List.any_append, isSection_closedParts]
    split <;> simp [Part.isSection]

theorem opens_openHead (draft : Draft) : Opens draft draft.openHead false true where
  leading := by
    rw [Bool.false_and, leading, kept_eq]
    simp [openHead]
  empty := rfl
  settled := by simp [openHead, Part.isSection]

theorem opens_step {line : Line} (stepped : draft.step line = .ok next)
    (opens : line.opensSection = true) : Opens draft next line.asksForRule line.settles := by
  cases line with
  | run | foreign => cases opens
  | directive line =>
      -- Resetting changes neither the parts nor the current section.
      have readied :
          (if (Line.directive line).resets then draft.reset else draft).kept = draft.kept ∧
            (if (Line.directive line).resets then draft.reset else draft).isSettled =
              draft.isSettled := by
        split <;> exact ⟨rfl, rfl⟩
      simp only [Draft.step] at stepped
      generalize (if (Line.directive line).resets then draft.reset else draft) = ready
        at stepped readied
      suffices opened : Opens ready next (Line.directive line).asksForRule
          (Line.directive line).settles from
        ⟨readied.1 ▸ readied.2 ▸ opened.leading, opened.empty, readied.2 ▸ opened.settled⟩
      have kinds : line.kind = .newSection ∨
          line.kind = .destination ∧ line.target = .known .head := by
        simpa [Line.opensSection] using opens
      rcases kinds with kind | ⟨kind, target⟩
      · simp only [Draft.obey, kind] at stepped
        cases stepped
        simp only [Line.asksForRule, Line.settles, Line.fills, kind, beq_self_eq_true,
          Bool.true_and]
        exact opens_newSection ready line
      · simp only [Draft.obey, kind, redirect, target] at stepped
        cases stepped
        have opened := opens_openHead { ready with link := none }
        simp only [Line.asksForRule, Line.settles, kind, target]
        exact ⟨opened.leading, opened.empty, opened.settled⟩

theorem Sound.isSettled_step (sound : draft.Sound) {line : Line}
    (stepped : draft.step line = .ok next) :
    next.isSettled = (draft.isSettled || line.settles) := by
  cases opens : line.opensSection with
  | true =>
      have opened := opens_step stepped opens
      rw [isSettled, opened.settled, opened.empty]
      simp
  | false =>
      have grows := sound.grows_step stepped opens
      rw [isSettled, (step_inside stepped opens).1, grows.occupied, isSettled, Bool.not_and,
        Bool.not_not, Bool.or_assoc]

end Draft

/-! ### Stretches of lines -/

/-- The numbers of sections that the stretches of some lines leave. -/
def sectionCounts (lines : List Line) : List Nat :=
  (lines.splitOnP Line.asksForRule).map sectionCount

theorem flatten_splitOnP {Item : Type} (test : Item → Bool) (items : List Item) :
    (items.splitOnP test).flatten = items.filter (!test ·) := by
  induction items with
  | nil => rfl
  | cons item rest inductionHypothesis =>
      obtain ⟨first, others, split⟩ := List.exists_cons_of_ne_nil (List.splitOnP_ne_nil test rest)
      rw [List.splitOnP_cons_eq_if_modifyHead]
      rw [split] at inductionHypothesis ⊢
      cases passes : test item with
      | true => simp [passes, ← inductionHypothesis]
      | false => simp [passes, ← inductionHypothesis]

/-- A section is left of a stretch as soon as one of its lines leaves something. -/
theorem sectionCount_ne_zero_iff {stretch : List Line} :
    sectionCount stretch ≠ 0 ↔ ∃ line ∈ stretch, line.fills = true := by
  have pieces : sectionCount stretch ≠ 0 ↔
      ∃ line ∈ (stretch.splitOnP Line.opensSection).flatten, line.fills = true := by
    rw [sectionCount, ← Nat.pos_iff_ne_zero, List.countP_pos_iff]
    simp only [List.any_eq_true, List.mem_flatten]
    constructor
    · rintro ⟨piece, split, line, member, fills⟩
      exact ⟨line, ⟨piece, split, member⟩, fills⟩
    · rintro ⟨line, ⟨piece, split, member⟩, fills⟩
      exact ⟨piece, split, line, member, fills⟩
  rw [pieces, flatten_splitOnP]
  constructor
  · rintro ⟨line, member, fills⟩
    exact ⟨line, (List.mem_filter.mp member).1, fills⟩
  · rintro ⟨line, member, fills⟩
    refine ⟨line, List.mem_filter.mpr ⟨member, ?_⟩, fills⟩
    cases opens : line.opensSection with
    | false => rfl
    | true =>
        rw [Line.fills_of_opensSection opens] at fills
        cases fills

theorem sectionCount_closed {front : List Line}
    (closed : ∀ line ∈ front, line.opensSection = false) :
    sectionCount front = if front.any Line.fills then 1 else 0 := by
  rw [sectionCount, List.splitOnP_eq_singleton closed, List.countP_singleton]

theorem sectionCount_opens {line : Line} (opens : line.opensSection = true)
    (front rest : List Line) :
    sectionCount (front ++ line :: rest) = sectionCount front + sectionCount rest := by
  rw [sectionCount, List.splitOnP_append_cons _ _ opens, List.countP_append]
  rfl

theorem unasked_of_closed {front : List Line}
    (closed : ∀ line ∈ front, line.opensSection = false) :
    ∀ line ∈ front, line.asksForRule = false := by
  intro line member
  apply Bool.eq_false_iff.mpr
  intro asks
  have opens := Line.opensSection_of_asksForRule asks
  rw [closed line member] at opens
  cases opens

theorem splitOnP_append {Item : Type} {test : Item → Bool} {front : List Item}
    (fails : ∀ item ∈ front, test item = false) (rest : List Item) :
    (front ++ rest).splitOnP test = (rest.splitOnP test).modifyHead (front ++ ·) := by
  induction front with
  | nil =>
      simp only [List.nil_append]
      cases List.splitOnP test rest <;> rfl
  | cons item others inductionHypothesis =>
      rw [List.forall_mem_cons] at fails
      rw [List.cons_append, List.splitOnP_cons_eq_if_modifyHead, if_neg (by simp [fails.1]),
        inductionHypothesis fails.2, List.modifyHead_modifyHead]
      rfl

theorem ruledTags_cons {count : Nat} {counts : List Nat} (nonempty : counts ≠ []) :
    ruledTags (count :: counts) = List.replicate count "section" ++ "hr" :: ruledTags counts := by
  rw [ruledTags, List.map_cons, List.intercalate_cons_of_ne_nil (by simpa using nonempty),
    List.append_assoc]
  rfl

theorem ruledTags_add (before count : Nat) (counts : List Nat) :
    ruledTags ((before + count) :: counts) =
      List.replicate before "section" ++ ruledTags (count :: counts) := by
  cases counts with
  | nil =>
      rw [ruledTags, ruledTags, List.map_singleton, List.map_singleton,
        List.intercalate_singleton, List.intercalate_singleton, List.replicate_add]
  | cons next rest =>
      rw [ruledTags_cons (List.cons_ne_nil _ _), ruledTags_cons (List.cons_ne_nil _ _),
        List.replicate_add, List.append_assoc]

theorem ruledTags_closed {front : List Line}
    (closed : ∀ line ∈ front, line.opensSection = false) :
    ruledTags (sectionCounts front) = if front.any Line.fills then ["section"] else [] := by
  rw [sectionCounts, List.splitOnP_eq_singleton (unasked_of_closed closed), List.map_singleton,
    sectionCount_closed closed]
  split <;> rfl

/-- Behind a line that opens a section the tags begin anew. -/
theorem ruledTags_opens {front : List Line}
    (closed : ∀ line ∈ front, line.opensSection = false) {line : Line}
    (opens : line.opensSection = true) (rest : List Line) :
    ruledTags (sectionCounts (front ++ line :: rest)) =
      (if front.any Line.fills then ["section"] else []) ++
        (if line.asksForRule then ["hr"] else []) ++ ruledTags (sectionCounts rest) := by
  rw [← ruledTags_closed closed]
  have unasked := unasked_of_closed closed
  have nonempty : sectionCounts rest ≠ [] := by
    simp [sectionCounts, List.splitOnP_ne_nil]
  have front_eq : sectionCounts front = [sectionCount front] := by
    rw [sectionCounts, List.splitOnP_eq_singleton unasked, List.map_singleton]
  cases asks : line.asksForRule with
  | true =>
      have cut : sectionCounts (front ++ line :: rest) =
          sectionCount front :: sectionCounts rest := by
        rw [sectionCounts, List.splitOnP_append_cons_of_forall_mem unasked line asks]
        rfl
      rw [cut, ruledTags_cons nonempty, front_eq]
      simp [ruledTags]
  | false =>
      have uncut : ∀ other ∈ front ++ [line], other.asksForRule = false :=
        List.forall_mem_append.mpr ⟨unasked, List.forall_mem_singleton.mpr asks⟩
      obtain ⟨stretch, others, split⟩ :=
        List.exists_cons_of_ne_nil (List.splitOnP_ne_nil Line.asksForRule rest)
      have joined : sectionCounts (front ++ line :: rest) =
          (sectionCount front + sectionCount stretch) :: others.map sectionCount := by
        rw [← List.singleton_append, ← List.append_assoc, sectionCounts, splitOnP_append uncut,
          split, List.modifyHead_cons, List.map_cons, List.append_assoc, List.singleton_append,
          sectionCount_opens opens]
      rw [joined, ruledTags_add, front_eq, sectionCounts, split, List.map_cons]
      simp [ruledTags]

namespace Draft

variable {draft last : Draft}

/-! ### Whole runs -/

/-- The sections and rules at the end of some lines, when the lines since the current
section was opened are known, and a rule that is asked for is put. -/
theorem Sound.tags_kept_run (sound : draft.Sound) {lines : List Line}
    (ran : draft.run lines = .ok last)
    (settled : draft.isSettled = true ∨ ∃ line ∈ lines.head?, line.settles = true)
    {front : List Line} (closed : ∀ line ∈ front, line.opensSection = false)
    (filled : draft.isFilled = front.any Line.fills) :
    last.kept.map Part.tag = draft.leading ++ ruledTags (sectionCounts (front ++ lines)) := by
  induction lines generalizing draft front with
  | nil =>
      cases ran
      rw [tags_kept, List.append_nil, ruledTags_closed closed, filled]
  | cons line rest inductionHypothesis =>
      obtain ⟨next, stepped, following⟩ := run_cons_ok ran
      have later : next.isSettled = true := by
        rw [sound.isSettled_step stepped, Bool.or_eq_true]
        simpa using settled
      cases opens : line.opensSection with
      | false =>
          have grows := sound.grows_step stepped opens
          have longer : ∀ other ∈ front ++ [line], other.opensSection = false :=
            List.forall_mem_append.mpr ⟨closed, List.forall_mem_singleton.mpr opens⟩
          have same : next.leading = draft.leading := by
            rw [leading, (step_inside stepped opens).1, leading]
          rw [inductionHypothesis (sound.step stepped) following (.inl later) longer
            (by rw [grows.filled, filled]; simp), same, List.append_assoc]
          rfl
      | true =>
          have opened := opens_step stepped opens
          have empty : next.isFilled = [].any Line.fills := by
            rw [isFilled, opened.empty]
            rfl
          rw [inductionHypothesis (sound.step stepped) following (.inl later)
            (List.forall_mem_nil _) empty, opened.leading, tags_kept, filled,
            ruledTags_opens closed opens]
          have ruled : (line.asksForRule && draft.isSettled) = line.asksForRule := by
            cases asks : line.asksForRule with
            | false => rfl
            | true =>
                have unsettling := Line.settles_of_asksForRule asks
                simpa [unsettling] using settled
          rw [ruled, List.nil_append]
          simp only [List.append_assoc]

theorem isFilled_of_unsettled (unsettled : draft.isSettled = false) : draft.isFilled = false := by
  rw [isSettled, Bool.or_eq_false_iff, Bool.not_eq_false'] at unsettled
  cases filled : draft.isFilled with
  | false => rfl
  | true =>
      rw [isEmpty_of_isFilled filled] at unsettled
      cases unsettled.2

/-- Before anything settles, no line leaves a section or a rule. -/
theorem Sound.tags_kept_unsettled (sound : draft.Sound) {lines : List Line}
    (ran : draft.run lines = .ok last) (unsettled : draft.isSettled = false)
    (bare : draft.leading = []) :
    last.kept.map Part.tag = ruledTags ((stretches lines).map sectionCount) := by
  have empty := isFilled_of_unsettled unsettled
  induction lines generalizing draft with
  | nil =>
      obtain rfl : draft = last := Except.ok.inj ran
      rw [tags_kept, bare, empty]
      rfl
  | cons line rest inductionHypothesis =>
      cases settles : line.settles with
      | true =>
          have run := sound.tags_kept_run ran (.inr ⟨line, rfl, settles⟩) (List.forall_mem_nil _)
            empty
          rw [run, bare, stretches, List.dropWhile_cons_of_neg (by simp [settles])]
          rfl
      | false =>
          obtain ⟨next, stepped, following⟩ := run_cons_ok ran
          have later : next.isSettled = false := by
            rw [sound.isSettled_step stepped, unsettled, settles]
            rfl
          have nothing : next.leading = [] := by
            cases opens : line.opensSection with
            | true =>
                rw [(opens_step stepped opens).leading, tags_kept, bare, empty, unsettled,
                  Bool.and_false]
                rfl
            | false => rw [leading, (step_inside stepped opens).1, ← leading, bare]
          rw [inductionHypothesis (sound.step stepped) following later nothing
            (isFilled_of_unsettled later), stretches, stretches,
            List.dropWhile_cons_of_pos (by simp [settles])]

end Draft

/-! ### Separation -/

section

variable {front back : List String}

theorem rulesSeparate_of_notMem (unruled : "hr" ∉ front) : RulesSeparate front := by
  intro before after split
  exact absurd (by simp [split]) unruled

/-- The first rule of some tags stands between two sections, and so do all behind it. -/
theorem rulesSeparate_append_cons (unruled : "hr" ∉ front) :
    RulesSeparate (front ++ "hr" :: back) ↔
      front.getLast? = some "section" ∧ back.head? = some "section" ∧ RulesSeparate back := by
  constructor
  · intro separate
    obtain ⟨ahead, behind⟩ := separate front back rfl
    refine ⟨ahead, behind, fun before after split => ?_⟩
    obtain ⟨last, first⟩ := separate (front ++ "hr" :: before) after (by simp [split])
    refine ⟨?_, first⟩
    rcases List.eq_nil_or_concat before with rfl | ⟨earlier, tag, rfl⟩
    · simp at last
    · simpa [List.getLast?_cons] using last
  · rintro ⟨ahead, behind, separate⟩ before after split
    rcases List.append_eq_append_iff.mp split with ⟨more, rfl, same⟩ | ⟨more, rfl, same⟩
    · cases more with
      | nil =>
          obtain rfl : back = after := (List.cons.inj same).2
          exact ⟨by rwa [List.append_nil], behind⟩
      | cons tag others =>
          obtain ⟨rfl, rfl⟩ := List.cons.inj same
          obtain ⟨last, first⟩ := separate others after rfl
          exact ⟨by simp [List.getLast?_cons, last], first⟩
    · cases more with
      | nil =>
          obtain rfl : after = back := (List.cons.inj same).2
          exact ⟨by rwa [List.append_nil] at ahead, behind⟩
      | cons tag others =>
          obtain ⟨rfl, -⟩ := List.cons.inj same
          exact absurd (by simp) unruled

theorem head?_ruledTags (count : Nat) (counts : List Nat) :
    (ruledTags (count :: counts)).head? = some "section" ↔ count ≠ 0 := by
  cases count with
  | zero =>
      cases counts with
      | nil => simp [ruledTags]
      | cons next rest => simp [ruledTags_cons]
  | succ count =>
      rw [Nat.add_comm, ruledTags_add]
      simp

/-- Rules between groups of sections separate sections when no group is empty. -/
theorem rulesSeparate_ruledTags {counts : List Nat} (nonempty : counts ≠ [])
    (unruled : "hr" ∉ front) (unended : front.getLast? ≠ some "section") :
    RulesSeparate (front ++ ruledTags counts) ↔
      counts.length = 1 ∨ ∀ count ∈ counts, count ≠ 0 := by
  induction counts generalizing front with
  | nil => exact absurd rfl nonempty
  | cons count rest inductionHypothesis =>
      have grouped : "hr" ∉ front ++ List.replicate count "section" := by
        simpa [List.mem_replicate] using unruled
      cases rest with
      | nil =>
          have plain : ruledTags [count] = List.replicate count "section" := by
            simp [ruledTags]
          rw [plain]
          exact iff_of_true (rulesSeparate_of_notMem grouped) (.inl rfl)
      | cons next others =>
          have ended : (front ++ List.replicate count "section").getLast? = some "section" ↔
              count ≠ 0 := by
            cases count with
            | zero => simpa using unended
            | succ count => simp [List.getLast?_replicate]
          have following := inductionHypothesis (List.cons_ne_nil next others)
            (List.not_mem_nil) (by simp)
          rw [List.nil_append] at following
          rw [ruledTags_cons (List.cons_ne_nil _ _), ← List.append_assoc,
            rulesSeparate_append_cons grouped, ended, head?_ruledTags, following]
          simp only [List.length_cons, List.forall_mem_cons]
          constructor
          · rintro ⟨here, behind, alone | ⟨-, all⟩⟩
            · have none : others = [] := List.eq_nil_of_length_eq_zero (by omega)
              exact .inr ⟨here, behind, by simp [none]⟩
            · exact .inr ⟨here, behind, all⟩
          · rintro (single | ⟨here, behind, all⟩)
            · omega
            · exact ⟨here, behind, .inr ⟨behind, all⟩⟩

end

open Draft in
/-- The sections and rules of a rendered page, behind its heading. -/
theorem tags_bodyChildren {options : Options} {document : Document} {page : Node}
    (rendered : renderTree options document = .ok page) :
    page.bodyChildren.map Element.tag =
      (titleHeading options document).map Element.tag ++
        ruledTags ((stretches document.lines).map sectionCount) := by
  obtain ⟨draft, ran, rfl⟩ := renderTree_ok rendered
  rw [bodyChildren_page, List.map_append, List.map_map,
    ← sound_start.tags_kept_unsettled ran rfl rfl]
  congr 2
  exact funext tag_node_part

/-- The rules of a rendered page stand between the stretches of its lines, so that each of
them separates two sections exactly when there are none, or every stretch has a line that
leaves something in a section. -/
theorem rulesSeparate_iff {options : Options} {document : Document} {page : Node}
    (rendered : renderTree options document = .ok page) :
    page.bodyChildren.map Element.tag =
        (titleHeading options document).map Element.tag ++
          ruledTags ((stretches document.lines).map sectionCount) ∧
      (RulesSeparate (page.bodyChildren.map Element.tag) ↔
        (stretches document.lines).length = 1 ∨
          ∀ stretch ∈ stretches document.lines, ∃ line ∈ stretch, line.fills = true) := by
  have tags := tags_bodyChildren rendered
  refine ⟨tags, ?_⟩
  have nonempty : (stretches document.lines).map sectionCount ≠ [] := by
    simp [stretches, List.splitOnP_ne_nil]
  have heading : (titleHeading options document).map Element.tag = [] ∨
      (titleHeading options document).map Element.tag = ["h1"] := by
    unfold titleHeading
    split
    · exact .inr rfl
    · exact .inl rfl
  rw [tags, rulesSeparate_ruledTags nonempty]
  · simp only [List.length_map, List.forall_mem_map, sectionCount_ne_zero_iff]
  · rcases heading with none | single
    · simp [none]
    · simp [single]
  · rcases heading with none | single
    · simp [none]
    · simp [single]

/-- A text, a section with an empty paragraph only, and a text in a section that asks for a
rule. -/
def vacantBetween : Document where
  lines :=
    [.run ⟨"a", .plain, false⟩,
      .directive (Directive.plain .newSection),
      .directive (Directive.plain .newParagraph),
      .directive { Directive.plain .newSection with breakBefore := true },
      .run ⟨"b", .plain, false⟩]
  metadata := []
  showsMetadata := false

/-- A section without content goes from between two others, and leaves one rule there. -/
theorem rulesSeparate_vacantBetween :
    ∃ page, renderTree .standard vacantBetween = .ok page ∧
      page.bodyChildren.map Element.tag = ["section", "hr", "section"] ∧
      RulesSeparate (page.bodyChildren.map Element.tag) := by
  obtain ⟨page, rendered⟩ : ∃ page, renderTree .standard vacantBetween = .ok page := by
    rw [Draft.renderTree_eq_page]
    exact ⟨_, rfl⟩
  obtain ⟨tags, separates⟩ := rulesSeparate_iff rendered
  exact ⟨page, rendered, tags.trans (by decide), separates.mpr (.inr (by decide))⟩

/-- A text in front of a section that asks for a rule, and has nothing in it, and of another
one with a text that does so too. -/
def ruledTwice : Document where
  lines :=
    [.run ⟨"a", .plain, false⟩,
      .directive { Directive.plain .newSection with breakBefore := true },
      .directive { Directive.plain .newSection with breakBefore := true },
      .run ⟨"b", .plain, false⟩]
  metadata := []
  showsMetadata := false

/-- A section that is dropped may leave a rule that stands next to another one. -/
theorem not_rulesSeparate_ruledTwice :
    ∃ page, renderTree .standard ruledTwice = .ok page ∧
      page.bodyChildren.map Element.tag = ["section", "hr", "hr", "section"] ∧
      ¬ RulesSeparate (page.bodyChildren.map Element.tag) := by
  obtain ⟨page, rendered⟩ : ∃ page, renderTree .standard ruledTwice = .ok page := by
    rw [Draft.renderTree_eq_page]
    exact ⟨_, rfl⟩
  have tags : page.bodyChildren.map Element.tag = ["section", "hr", "hr", "section"] :=
    (tags_bodyChildren rendered).trans (by decide)
  refine ⟨page, rendered, tags, fun separate => ?_⟩
  obtain ⟨-, behind⟩ := separate ["section"] ["hr", "section"] tags
  exact absurd (Option.some.inj behind) (by decide)

end Folio
