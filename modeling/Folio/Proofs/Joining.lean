import Folio.Proofs.Boundary

/-!
# Joining documents at a section

Where a section begins without a rule, a document may be cut in two.  Provided that
no blob and no tooltip waits at the cut, rendering the whole gives what rendering
the two pieces gives, the one behind the other, with the numbers of notes raised in
the second one.  It fails if and as the second piece does, given that the first one
renders.
-/

namespace Folio

open Markup Render

/-! ### Empty tooltips -/

namespace Render.Pass

/-- A state with an empty tooltip taken as none. -/
def plain (pass : Pass) : Pass :=
  { pass with hint := if pass.hint = some "" then none else pass.hint }

theorem titled_plain (pass : Pass) (element : Node) :
    pass.plain.titled element = pass.titled element := by
  unfold titled plain
  by_cases empty : pass.hint = some ""
  · simp [empty]
  · simp [empty]

theorem append_plain (pass : Pass) (child : Node) :
    pass.plain.append child =
      (pass.append child).map fun grown => (grown.1.plain, grown.2) := by
  unfold append
  change (resolve pass.current pass.destination >>= _) = _
  cases resolve pass.current pass.destination <;> rfl

theorem newParagraph_plain (pass : Pass) (line : Directive) :
    pass.plain.newParagraph line = (pass.newParagraph line).map plain := by
  have destination : pass.plain.destination = pass.destination := rfl
  unfold newParagraph
  rw [destination]
  split
  · rfl
  · change (resolve pass.current pass.destination >>= _) = _
    cases resolve pass.current pass.destination <;> rfl

theorem newLink_plain (pass : Pass) (line : Directive) :
    pass.plain.newLink line = (pass.newLink line).map plain := by
  simp only [newLink, titled_plain, append_plain]
  cases pass.append _ <;> rfl

theorem newAnchor_plain (pass : Pass) (line : Directive) :
    pass.plain.newAnchor line = (pass.newAnchor line).map plain := by
  simp only [newAnchor, append_plain]
  cases pass.append _ <;> rfl

theorem newImage_plain (pass : Pass) (line : Directive) :
    pass.plain.newImage line = (pass.newImage line).map plain := by
  have source : pass.plain.imageSource line = pass.imageSource line := rfl
  simp only [newImage, source, titled_plain, append_plain]
  cases pass.imageSource line with
  | error failure => rfl
  | ok found =>
      change (Except.map _ (pass.append _) >>= _) = Except.map plain (pass.append _ >>= _)
      cases pass.append _ <;> rfl

theorem newTable_plain (pass : Pass) (line : Directive) :
    pass.plain.newTable line = (pass.newTable line).map plain := by
  unfold newTable
  change (Table.declare pass.register pass.sectionNumber pass.current line.content >>= _) = _
  cases Table.declare pass.register pass.sectionNumber pass.current line.content <;> rfl

theorem openNote_plain (pass : Pass) : pass.plain.openNote = pass.openNote.map plain := by
  have nextNote : pass.plain.nextNote = pass.nextNote := rfl
  simp only [openNote, nextNote, append_plain]
  cases pass.append _ <;> rfl

theorem openCell_plain (pass : Pass) (header : Bool) :
    pass.plain.openCell header = (pass.openCell header).map plain := by
  unfold openCell
  change (Table.addCell pass.register pass.sectionNumber pass.current header >>= _) = _
  cases Table.addCell pass.register pass.sectionNumber pass.current header <;> rfl

theorem redirect_plain (pass : Pass) (line : Directive) :
    pass.plain.redirect line = (pass.redirect line).map plain := by
  have noted := openNote_plain { pass with link := none }
  have celled := openCell_plain { pass with link := none } line.header
  unfold redirect
  split
  · rfl
  · change (openNote (plain { pass with link := none }) >>= _) = _
    rw [noted]
    dsimp only
    cases openNote { pass with link := none } <;> rfl
  · change (openCell (plain { pass with link := none }) line.header >>= _) = _
    rw [celled]
    dsimp only
    cases openCell { pass with link := none } line.header <;> rfl
  · rfl
  · rfl

theorem addRun_plain (pass : Pass) (run : TextRun) :
    pass.plain.addRun run = (pass.addRun run).map plain := by
  unfold addRun
  change (resolve pass.current pass.destination >>= _) = _
  cases resolve pass.current pass.destination <;> rfl

theorem plain_plain (pass : Pass) : pass.plain.plain = pass.plain := by
  unfold plain
  by_cases empty : pass.hint = some "" <;> simp [empty]

theorem map_plain_plain {Cause : Type} (outcome : Except Cause Pass) :
    (outcome.map plain).map plain = outcome.map plain := by
  cases outcome with
  | error failure => rfl
  | ok pass => exact congrArg Except.ok (plain_plain pass)

theorem obey_plain (pass : Pass) (line : Directive) :
    (pass.plain.obey line).map plain = (pass.obey line).map plain := by
  have worded {outcome other : Except RenderError Pass} (same : outcome = other.map plain) :
      (outcome.mapError Failure.refused).map plain =
        (other.mapError Failure.refused).map plain := by
    rw [Draft.map_mapError, Draft.map_mapError, same, map_plain_plain]
  unfold obey
  split
  · exact congrArg Except.ok (plain_plain (pass.newSection line))
  · exact worded (newParagraph_plain pass line)
  · rfl
  · exact worded (newLink_plain pass line)
  · exact worded (newAnchor_plain pass line)
  · exact congrArg Except.ok (plain_plain { pass with blob := some ⟨line.mediaType, line.data⟩ })
  · exact worded (newImage_plain pass line)
  · rw [newTable_plain, map_plain_plain]
  · exact worded (redirect_plain pass line)

theorem step_plain (pass : Pass) (line : Line) :
    (pass.plain.step line).map plain = (pass.step line).map plain := by
  have ready : (if line.resets then pass.plain.reset else pass.plain) =
      (if line.resets then pass.reset else pass).plain := by
    split <;> rfl
  unfold step
  rw [ready]
  cases line with
  | directive line => exact obey_plain _ line
  | run run =>
      dsimp only
      rw [Draft.map_mapError, Draft.map_mapError, addRun_plain, map_plain_plain]
  | foreign shown => rfl

/-- An empty tooltip that waits changes nothing. -/
theorem run_plain (pass : Pass) (lines : List Line) :
    (pass.plain.run lines).map plain = (pass.run lines).map plain := by
  induction lines generalizing pass with
  | nil => exact congrArg Except.ok (plain_plain pass)
  | cons line rest inductionHypothesis =>
      have through (outcome : Except (Failure RenderError) Pass) :
          (outcome >>= (·.run rest)).map plain =
            (outcome.map plain >>= (·.run rest)).map plain := by
        cases outcome with
        | error failure => rfl
        | ok next => exact (inductionHypothesis next).symm
      calc (pass.plain.run (line :: rest)).map plain
        _ = ((pass.plain.step line).map plain >>= (·.run rest)).map plain := through _
        _ = ((pass.step line).map plain >>= (·.run rest)).map plain := by rw [step_plain]
        _ = (pass.run (line :: rest)).map plain := (through _).symm

theorem run_append (pass : Pass) (before after : List Line) :
    pass.run (before ++ after) = pass.run before >>= (·.run after) := by
  induction before generalizing pass with
  | nil => rfl
  | cons line rest inductionHypothesis =>
      rw [List.cons_append, run, run, bind_assoc]
      exact congrArg (pass.step line >>= ·) (funext inductionHypothesis)

end Render.Pass

namespace Draft

open Markup.Element

/-! ### Parts that are kept -/

/-- The parts that are behind a draft when the next section begins. -/
def closedParts (draft : Draft) : List Part :=
  if draft.blocks = [] then draft.parts else draft.parts ++ [.closed draft.current]

/-- What is left of some parts. -/
def keptOf (parts : List Part) : List Part := (parts.map Part.pruned).filter (!·.isVacant)

theorem kept_eq (draft : Draft) :
    draft.kept = keptOf (draft.parts ++ [.closed draft.current]) := rfl

theorem keptOf_append (before after : List Part) :
    keptOf (before ++ after) = keptOf before ++ keptOf after := by
  simp [keptOf]

theorem keptOf_closedParts (draft : Draft) : keptOf draft.closedParts = draft.kept := by
  unfold closedParts
  split
  · rename_i empty
    have vacant : keptOf [.closed draft.current] = [] := by
      have blocks : draft.current.blocks = [] := empty
      simp [keptOf, Part.pruned, Section.pruned, Part.isVacant, Section.isVacant, blocks]
    rw [kept_eq, keptOf_append, vacant, List.append_nil]
  · rfl

theorem kept_behind (front : List Part) (draft : Draft) :
    (draft.behind front).kept = keptOf front ++ draft.kept := by
  rw [kept_eq, kept_eq, ← keptOf_append, ← List.append_assoc]
  rfl

theorem isVacant_raise_paragraph (shift : Nat) (paragraph : Paragraph) :
    (paragraph.raise shift).isVacant = paragraph.isVacant := by
  simp [Paragraph.isVacant, Paragraph.raise]

theorem raise_filter_paragraphs (shift : Nat) (paragraphs : List Paragraph) :
    (paragraphs.map (Paragraph.raise shift)).filter (!·.isVacant) =
      (paragraphs.filter (!·.isVacant)).map (Paragraph.raise shift) := by
  simp [List.filter_map, Function.comp_def, isVacant_raise_paragraph]

theorem pruned_raise_block (shift : Nat) (block : Block) :
    (block.raise shift).pruned = block.pruned.raise shift := by
  cases block with
  | grid table =>
      simp [Block.raise, Block.pruned, Grid.raise, Grid.pruned, Cell.pruned, Cell.raise,
        raise_filter_paragraphs]
  | note footnote =>
      simp [Block.raise, Block.pruned, Footnote.raise, Footnote.pruned, raise_filter_paragraphs]
  | _ => rfl

theorem isVacant_raise_block (shift : Nat) (block : Block) :
    (block.raise shift).isVacant = block.isVacant := by
  cases block with
  | paragraph single => exact isVacant_raise_paragraph shift single
  | _ => rfl

theorem pruned_raise (shift : Nat) (part : Part) :
    (part.raise shift).pruned = part.pruned.raise shift := by
  cases part with
  | rule => rfl
  | closed part =>
      simp [Part.raise, Part.pruned, Section.raise, Section.pruned, List.filter_map,
        Function.comp_def, pruned_raise_block, isVacant_raise_block]

theorem isVacant_raise (shift : Nat) (part : Part) :
    (part.raise shift).isVacant = part.isVacant := by
  cases part with
  | rule => rfl
  | closed part => simp [Part.raise, Part.isVacant, Section.isVacant, Section.raise]

theorem keptOf_raise (shift : Nat) (parts : List Part) :
    keptOf (parts.map (Part.raise shift)) = (keptOf parts).map (Part.raise shift) := by
  simp [keptOf, List.filter_map, Function.comp_def, pruned_raise, isVacant_raise]

theorem kept_raise (shift : Nat) (draft : Draft) :
    (draft.raise shift).kept = draft.kept.map (Part.raise shift) := by
  rw [kept_eq draft, ← keptOf_raise, List.map_append]
  rfl

/-! ### The first line behind the cut -/

theorem newSection_eq (draft : Draft) {line : Directive} (unruled : line.breakBefore = false) :
    draft.newSection line =
      { draft with
        parts := draft.closedParts
        current := ⟨line.alignment, []⟩
        table := none
        focus := .body
        link := none } := by
  simp only [Draft.newSection, unruled, Bool.false_and, Bool.false_eq_true, if_false]
  rfl

/-- Nothing is left of what came before but the parts in front and the number of the
next note. -/
theorem step_newSection {draft : Draft} (hintless : draft.hint = none)
    (blobless : draft.blob = none) {count : Nat} (next : draft.nextNote = count + 1)
    {line : Directive} (begins : line.kind = .newSection) (unruled : line.breakBefore = false) :
    draft.step (.directive line) =
      .ok (((start.newSection line).raise count).behind draft.closedParts) := by
  have stepped : draft.step (.directive line) =
      .ok ((if (Line.directive line).resets then draft.reset else draft).newSection line) := by
    simp only [Draft.step, Draft.obey, begins]
  have same : (if (Line.directive line).resets then draft.reset else draft).newSection line =
      { draft.newSection line with hint := none } := by
    rw [newSection_eq draft unruled]
    split
    · rw [newSection_eq draft.reset unruled]
      rfl
    · rw [newSection_eq draft unruled, hintless]
  rw [stepped, same, newSection_eq draft unruled, newSection_eq start unruled, next, blobless,
    Nat.add_comm]
  simp [raise, behind, start, Section.raise, closedParts, Draft.blocks]

/-- Lines behind the cut, with the parts in front of it. -/
theorem run_newSection {draft : Draft} (hintless : draft.hint = none)
    (blobless : draft.blob = none) {count : Nat} (next : draft.nextNote = count + 1)
    {line : Directive} (begins : line.kind = .newSection) (unruled : line.breakBefore = false)
    {rest : List Line} (unruledRest : ∀ later ∈ rest, later.asksForRule = false) :
    draft.run (.directive line :: rest) =
      (start.run (.directive line :: rest)).map fun last =>
        (last.raise count).behind draft.closedParts := by
  have first : start.step (.directive line) = .ok (start.newSection line) := by
    simp only [Draft.step, Draft.obey, begins]
    split <;> rfl
  rw [run, run, step_newSection hintless blobless next begins unruled, first]
  dsimp only
  rw [← behind_run _ _ unruledRest, ← raise_run]
  cases (start.newSection line).run rest <;> rfl

end Draft

open Draft Markup.Element

namespace Draft

/-- The page of a draft and the pages of the pieces that it is made of. -/
theorem bodyChildren_behind {options : Options} (untitled : options.titleHeading = false)
    (document : Document) (count : Nat) (first last : Draft) :
    (page options document ((last.raise count).behind first.closedParts)).bodyChildren =
      (page options document first).bodyChildren ++
        (page options document last).bodyChildren.map (renumber count) := by
  have title : titleHeading options document = [] := by simp [titleHeading, untitled]
  rw [bodyChildren_page, bodyChildren_page, bodyChildren_page, title, kept_behind,
    keptOf_closedParts, kept_raise]
  simp [renumber_part]

/-- The page of a document is that of the draft that the lines behind the cut lead to
from where the others ended, whether or not an empty tooltip waits there. -/
theorem renderTree_from {options : Options} {document : Document} {first : List Line}
    {pass : Pass} (ran : (initialPass options document).run first = .ok pass) {draft : Draft}
    (depicts : Depicts (emptyBody options document) draft pass.plain) (sound : draft.Sound)
    (lines : List Line) :
    renderTree options { document with lines := first ++ lines } =
      (draft.run lines).map (page options document) := by
  have opening : initialPass options { document with lines := first ++ lines } =
      initialPass options document := rfl
  have plainly (outcome : Except (Failure RenderError) Pass) :
      (outcome.map fun pass =>
          (assemble (Page.head options.stylesheets document) pass.body).prune.1) =
        (outcome.map Pass.plain).map fun pass =>
          (assemble (Page.head options.stylesheets document) pass.body).prune.1 := by
    cases outcome <;> rfl
  have agree := depicts.run (bare_emptyBody options document) sound lines
  have whole : (initialPass options document).run (first ++ lines) = pass.run lines := by
    rw [Pass.run_append, ran]
    rfl
  rw [renderTree_eq_map, opening, whole]
  refine (plainly (pass.run lines)).trans ?_
  rw [← Pass.run_plain, ← plainly]
  exact agree.map_eq fun draft pass depicts => prune_assemble options document depicts

end Draft

/-- Where a section begins without a rule, and no blob and no tooltip waits, a
document may be cut in two: the second piece stands behind the first one as it is
rendered on its own, with the numbers of its notes raised by how many notes the first
one opens.  The whole fails if and as the second piece does. -/
theorem renderTree_append {options : Options} (untitled : options.titleHeading = false)
    {document : Document} {first rest : List Line} {pass : Pass}
    (ran : (initialPass options document).run first = .ok pass) (blobless : pass.blob = none)
    (hintless : pass.hint = none ∨ pass.hint = some "") {line : Directive}
    (begins : line.kind = .newSection) (unruled : line.breakBefore = false)
    (unruledRest : ∀ later ∈ rest, later.asksForRule = false) :
    ∃ page, renderTree options { document with lines := first } = .ok page ∧
      (renderTree options { document with lines := first ++ .directive line :: rest }).map
          bodyChildren =
        (renderTree options { document with lines := .directive line :: rest }).map fun following =>
          page.bodyChildren ++ following.bodyChildren.map (renumber (noteCount first)) := by
  have agree := agree_initialPass options document first
  rw [ran] at agree
  obtain ⟨draft, drafted, depicts⟩ := agree.of_ok_state
  have numbered := numbered_start.run sound_start drafted
  rw [Nat.zero_add] at numbered
  have sound := sound_start.run drafted
  have plainHint : pass.plain.hint = none := by
    rcases hintless with none | empty <;> simp [Pass.plain, *]
  have calm : Depicts (emptyBody options document) { draft with hint := none } pass.plain :=
    { depicts with hint := plainHint }
  have calmSound : Sound { draft with hint := none } := ⟨sound.focus, sound.table, sound.link⟩
  refine ⟨page options document draft, ?_, ?_⟩
  · rw [renderTree_eq_page]
    exact congrArg (Except.map (page options document)) drafted
  · have plain : { draft with hint := none }.hint = none := rfl
    have behind := run_newSection plain
      (depicts.blob.symm.trans blobless) numbered.next begins unruled unruledRest
    have alone := renderTree_eq_page options { document with lines := .directive line :: rest }
    rw [renderTree_from ran calm calmSound, behind, alone]
    dsimp only
    cases start.run (.directive line :: rest) with
    | error failure => rfl
    | ok last =>
        exact congrArg Except.ok
          (bodyChildren_behind untitled document (noteCount first) draft last)

/-- A text with a note. -/
def noteLines : List Line :=
  [.run ⟨"a", .plain, false⟩,
    .directive { Directive.plain .destination with target := .known .note },
    .run ⟨"b", .plain, false⟩]

/-- The same lines once more behind a section: the note there has the number two. -/
theorem renderTree_append_notes :
    ∃ page, renderTree .standard ⟨noteLines, [], false⟩ = .ok page ∧
      (renderTree .standard
          ⟨noteLines ++ .directive (Directive.plain .newSection) :: noteLines, [], false⟩).map
          bodyChildren =
        (renderTree .standard
          ⟨.directive (Directive.plain .newSection) :: noteLines, [], false⟩).map fun following =>
          page.bodyChildren ++ following.bodyChildren.map (renumber 1) := by
  obtain ⟨draft, drafted, blobless, hintless⟩ :
      ∃ draft, start.run noteLines = .ok draft ∧ draft.blob = none ∧ draft.hint = none :=
    ⟨_, rfl, rfl, rfl⟩
  have agree := agree_initialPass .standard ⟨noteLines, [], false⟩ noteLines
  rw [drafted] at agree
  obtain ⟨pass, ran, depicts⟩ := agree.of_ok
  exact renderTree_append rfl ran (depicts.blob.trans blobless)
    (.inl (depicts.hint.trans hintless)) rfl rfl (by decide)

end Folio
