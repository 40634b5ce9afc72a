import Folio.Proofs.Selection
import Folio.Proofs.Signs
import Mathlib

/-!
# Footnotes

Opening a note leaves three elements in the page: the reference where content
went, the note at the end of the section, and the way back at its beginning.  All
three bear the number of the note.  Notes are opened from anywhere and references
leave document order, but a line only ever inserts a reference into the current
section and appends a note behind it.  So the notes of a page stand in the order of
their numbers, each section holds the references to its own notes, and every
reference comes before its note.
-/

namespace Folio

open Markup Render

def Line.opensNote : Line → Bool
  | .directive line => line.kind == .destination && line.target == .known .note
  | _ => false

/-- How many notes lines open. -/
def noteCount (lines : List Line) : Nat := lines.countP Line.opensNote

namespace Markup.Element

/-- Whether an element is the reference to a note. -/
def isReference (element : Node) : Bool :=
  element.isTagged ["a"] && element.classes.contains "to-note"

/-- Whether an element is the way back from a note. -/
def isBack (element : Node) : Bool :=
  element.isTagged ["a"] && element.classes.contains "from-note"

def isNote (element : Node) : Bool := element.isTagged ["aside"]

/-- Whether an element is the reference to the note with a number: it shows the
number, it leads to the note, and it is led back to. -/
def refersTo (number : Nat) (element : Node) : Bool :=
  element.isReference && element.text == some (toString number) &&
    element.get? "name" == some s!"note-return-{number}" &&
    element.get? "href" == some s!"#note-{number}"

/-- Whether an element is the way back from the note with a number. -/
def leadsBackFrom (number : Nat) (element : Node) : Bool :=
  element.isBack && element.get? "name" == some s!"note-{number}" &&
    element.get? "href" == some s!"#note-return-{number}"

/-- A note begins with the way back from the note with a number. -/
def BeginsNote (number : Nat) (element : Node) : Prop :=
  element.isNote = true ∧
    ∃ back rest, element.children = back :: rest ∧ leadsBackFrom number back = true

/-- Whether an element leads to a note or back from it. -/
def isNoteLink (element : Node) : Bool := element.isReference || element.isBack

/-- Whether an element is one of those that a note leaves in a page. -/
def isNoteElement (element : Node) : Bool := element.isNoteLink || element.isNote

end Markup.Element

open Markup.Element

/-- A page has notes numbered from one to a count, each with one reference and one
way back. -/
structure Footnoted (count : Nat) (page : Node) : Prop where
  references : page.elements.countP isReference = count
  backs : page.elements.countP isBack = count
  reference_unique (number : Nat) (positive : 1 ≤ number) (bounded : number ≤ count) :
    page.elements.countP (refersTo number) = 1
  back_unique (number : Nat) (positive : 1 ≤ number) (bounded : number ≤ count) :
    page.elements.countP (leadsBackFrom number) = 1
  /-- The notes stand in the order of their numbers and begin with the way back. -/
  notes : List.Forall₂ BeginsNote (List.range' 1 count) (page.elements.filter isNote)
  /-- A reference stands in the section of its note and before it. -/
  paired (number : Nat) (positive : 1 ≤ number) (bounded : number ≤ count) :
    ∃ part ∈ page.sections, ∃ reference note,
      [reference, note].Sublist part.elements ∧
        refersTo number reference = true ∧ BeginsNote number note

namespace Draft

/-! ### Marks -/

/-- What opening the note with a number leaves. -/
inductive Mark where
  | reference (number : Nat)
  | note (number : Nat)
  | back (number : Nat)
  deriving DecidableEq

def Mark.reference? : Mark → Option Nat
  | .reference number => some number
  | _ => none

def Mark.note? : Mark → Option Nat
  | .note number => some number
  | _ => none

def Mark.back? : Mark → Option Nat
  | .back number => some number
  | _ => none

def Item.marks : Item → List Mark
  | .marker number => [.reference number]
  | _ => []

/-- What a block shows of itself, apart from its items. -/
def Block.ownMarks : Block → List Mark
  | .note footnote => [.note footnote.number, .back footnote.number]
  | _ => []

/-- The marks of a block in document order. -/
def Block.marks (block : Block) : List Mark :=
  block.ownMarks ++ block.items.flatMap Item.marks

def Part.marks : Part → List Mark
  | .rule => []
  | .closed part => part.blocks.flatMap Block.marks

/-- The numbers of the notes of some marks; and likewise below. -/
def notes (marks : List Mark) : List Nat := marks.filterMap Mark.note?

def references (marks : List Mark) : List Nat := marks.filterMap Mark.reference?

def backs (marks : List Mark) : List Nat := marks.filterMap Mark.back?

/-- Every note of a section has its reference there, and in front of it. -/
structure Paired (marks : List Mark) : Prop where
  perm : (references marks).Perm (notes marks)
  before (number : Nat) (opened : number ∈ notes marks) :
    [Mark.reference number, .note number].Sublist marks

/-- All marks of a draft. -/
def marks (draft : Draft) : List Mark :=
  draft.parts.flatMap Part.marks ++ draft.blocks.flatMap Block.marks

/-- A draft whose notes are numbered from one to a count. -/
structure Numbered (count : Nat) (draft : Draft) : Prop where
  next : draft.nextNote = count + 1
  ordered : notes draft.marks = List.range' 1 count
  closed : ∀ part ∈ draft.parts, Paired part.marks
  current : Paired (draft.blocks.flatMap Block.marks)

/-! ### Lines that open no note -/

theorem marks_fill (frame : Frame) :
    ∃ front, ∀ items, (frame.fill items).marks = front ++ items.flatMap Item.marks := by
  obtain ⟨front, filled⟩ := items_fill frame
  refine ⟨(frame.fill []).ownMarks ++ front.flatMap Item.marks, fun items => ?_⟩
  have own : (frame.fill items).ownMarks = (frame.fill []).ownMarks := by
    cases frame <;> rfl
  rw [Block.marks, filled, own, List.flatMap_append, List.append_assoc]

theorem marks_next (frame : Frame) {container : Place}
    (inside : frame.container? = some container) (items : List Item) (alignment : Alignment) :
    ((frame.next items alignment).fill []).marks = (frame.fill items).marks := by
  rw [Block.marks, Block.marks, items_next frame inside]
  cases frame <;> rfl

theorem marks_addCell (header : Bool) (block : Block) :
    (block.addCell header).marks = block.marks := by
  rw [Block.marks, Block.marks, items_addCell]
  cases block <;> rfl

theorem marks_reach (draft : Draft) :
    draft.reach.1.flatMap Block.marks = draft.blocks.flatMap Block.marks :=
  flatMap_reach rfl rfl draft

theorem marks_edit (draft : Draft) {change : List Item → List Item}
    (keeps : ∀ items, (change items).flatMap Item.marks = items.flatMap Item.marks) :
    (draft.edit change).blocks.flatMap Block.marks = draft.blocks.flatMap Block.marks :=
  flatMap_edit marks_fill (marks_reach draft) keeps

theorem marks_put (draft : Draft) {item : Item} (markless : item.marks = []) :
    (draft.put item).blocks.flatMap Block.marks = draft.blocks.flatMap Block.marks :=
  marks_edit draft fun items => by simp [markless]

theorem marks_item_addRun (run : TextRun) (item : Item) : (item.addRun run).marks = item.marks := by
  cases item <;> rfl

theorem notes_append (before after : List Mark) :
    notes (before ++ after) = notes before ++ notes after :=
  List.filterMap_append

theorem references_append (before after : List Mark) :
    references (before ++ after) = references before ++ references after :=
  List.filterMap_append

theorem paired_nil : Paired [] where
  perm := .nil
  before number opened := by cases opened

/-- No note is opened between two drafts, and no section. -/
structure SameMarks (draft next : Draft) : Prop where
  nextNote : next.nextNote = draft.nextNote
  parts : next.parts = draft.parts
  blocks : next.blocks.flatMap Block.marks = draft.blocks.flatMap Block.marks

theorem Numbered.of_same {count : Nat} {draft next : Draft} (numbered : draft.Numbered count)
    (same : SameMarks draft next) : next.Numbered count where
  next := same.nextNote.trans numbered.next
  ordered := by
    rw [marks, same.parts, same.blocks]
    exact numbered.ordered
  closed := same.parts ▸ numbered.closed
  current := same.blocks ▸ numbered.current

/-- Closing the current section, or dropping it when it is empty, moves its
marks. -/
theorem Numbered.of_parts {count : Nat} {draft next : Draft} (numbered : draft.Numbered count)
    (nextNote : next.nextNote = draft.nextNote) (empty : next.blocks = [])
    (ordered : next.parts.flatMap Part.marks = draft.marks)
    (closed : ∀ part ∈ next.parts, Paired part.marks) : next.Numbered count where
  next := nextNote.trans numbered.next
  ordered := by
    rw [marks, ordered, empty, List.flatMap_nil, List.append_nil]
    exact numbered.ordered
  closed := closed
  current := by
    rw [empty]
    exact paired_nil

theorem Numbered.closing {count : Nat} {draft : Draft} (numbered : draft.Numbered count) :
    ∀ part ∈ draft.parts ++ [.closed draft.current], Paired part.marks := by
  intro part member
  rcases List.mem_append.mp member with earlier | isCurrent
  · exact numbered.closed part earlier
  · rw [List.mem_singleton.mp isCurrent]
    exact numbered.current

theorem flatMap_marks_closing (draft : Draft) :
    (draft.parts ++ [Part.closed draft.current]).flatMap Part.marks = draft.marks := by
  simp [marks, Part.marks, Draft.blocks]

theorem Numbered.newSection {count : Nat} {draft : Draft} (numbered : draft.Numbered count)
    (line : Directive) : (draft.newSection line).Numbered count := by
  refine numbered.of_parts rfl rfl ?_ fun part member => ?_
  · have vacant (empty : draft.blocks = []) : (Part.closed draft.current).marks = [] :=
      congrArg (List.flatMap Block.marks) empty
    exact (flatMap_newSection rfl vacant line).trans (flatMap_marks_closing draft)
  · rcases mem_parts_newSection member with rfl | kept
    · exact paired_nil
    · exact numbered.closing part kept

theorem Numbered.openHead {count : Nat} {draft : Draft} (numbered : draft.Numbered count) :
    draft.openHead.Numbered count :=
  numbered.of_parts rfl rfl (flatMap_marks_closing draft) numbered.closing

theorem sameMarks_put (draft : Draft) {item : Item} (markless : item.marks = []) :
    SameMarks draft (draft.put item) :=
  ⟨rfl, rfl, marks_put draft markless⟩

theorem sameMarks_addRun (draft : Draft) (run : TextRun) : SameMarks draft (draft.addRun run) := by
  unfold Draft.addRun
  split
  · exact sameMarks_put draft rfl
  · split
    · refine ⟨rfl, rfl, marks_edit draft fun items => ?_⟩
      rw [List.flatMap_def, List.flatMap_def, map_modify_of_keeps (marks_item_addRun run)]
    · exact sameMarks_put draft rfl

theorem sameMarks_newImage {draft next : Draft} {line : Directive}
    (shown : draft.newImage line = .ok next) : SameMarks draft next := by
  obtain ⟨source, -, -, rfl⟩ := newImage_ok shown
  exact ⟨rfl, rfl, marks_put draft rfl⟩

theorem sameMarks_newTable {draft next : Draft} {line : Directive}
    (declared : draft.newTable line = .ok next) : SameMarks draft next := by
  obtain ⟨columns, -, rfl⟩ := newTable_ok declared
  have cellless : (Block.grid ⟨columns, []⟩).marks = [] := rfl
  exact ⟨rfl, rfl, by simp [withBlocks, Draft.blocks, cellless]⟩

theorem sameMarks_newParagraph {draft : Draft} (sound : draft.Sound) (line : Directive) :
    SameMarks draft (draft.newParagraph line) := by
  have inside {index : Nat} (focus : draft.focus = .note index ∨ draft.focus = .cell index) :
      (draft.blocks.modify index (·.addParagraph line.alignment)).flatMap Block.marks =
        draft.blocks.flatMap Block.marks := by
    obtain ⟨frame, items, after, ⟨before, split, rfl⟩, fits⟩ := sound.focus index focus
    obtain ⟨container, contained⟩ := fits.container (Focus.destination_of_inside focus)
    rw [split, modify_between, addParagraph_fill]
    simp [marks_next frame contained]
  have nothing : (Block.paragraph ⟨line.alignment, []⟩).marks = [] := rfl
  refine ⟨rfl, rfl, ?_⟩
  change (draft.newParagraph line).current.blocks.flatMap Block.marks = _
  unfold Draft.newParagraph
  cases focus : draft.focus with
  | body => simp [withBlocks, marks_reach, nothing]
  | head => simp [withBlocks, nothing]
  | note index => exact inside (.inl focus)
  | cell index => exact inside (.inr focus)

theorem sameMarks_openCell {draft next : Draft} {header : Bool}
    (opens : draft.openCell header = .ok next) : SameMarks draft next := by
  obtain ⟨index, -, rfl⟩ := openCell_ok opens
  refine ⟨rfl, rfl, ?_⟩
  simp [withBlocks, Draft.blocks, List.flatMap_def, map_modify_of_keeps (marks_addCell header)]

/-! ### Opening a note -/

/-- A reference put anywhere, and its note put at the end. -/
theorem Paired.opening {before after : List Mark} (paired : Paired (before ++ after))
    (number : Nat) :
    Paired (before ++ .reference number :: after ++ [.note number, .back number]) := by
  have referred : references (before ++ .reference number :: after ++
      [.note number, .back number]) = references before ++ number :: references after := by
    simp [references, List.filterMap_cons, Mark.reference?]
  have noted : notes (before ++ .reference number :: after ++ [.note number, .back number]) =
      notes (before ++ after) ++ [number] := by
    simp [notes, List.filterMap_cons, Mark.note?]
  constructor
  · have fewer := paired.perm
    rw [references_append] at fewer
    rw [referred, noted]
    exact List.perm_middle.trans
      ((fewer.cons number).trans (List.perm_append_singleton number _).symm)
  · intro other opened
    rw [noted] at opened
    rcases List.mem_append.mp opened with earlier | isOpened
    · have grown : (before ++ after).Sublist (before ++ .reference number :: after) :=
        (List.sublist_cons_self _ after).append_left before
      exact (paired.before other earlier).trans (grown.trans (List.sublist_append_left _ _))
    · obtain rfl := List.mem_singleton.mp isOpened
      have referenced : [Mark.reference other].Sublist (before ++ .reference other :: after) :=
        List.singleton_sublist.mpr (by simp)
      exact referenced.append (List.singleton_sublist.mpr List.mem_cons_self)

theorem Numbered.openNote {count : Nat} {draft : Draft} (numbered : draft.Numbered count)
    (sound : draft.Sound) : draft.openNote.Numbered (count + 1) := by
  obtain ⟨before, after, split, put⟩ :=
    sound.flatMap_put marks_fill (marks_reach draft) (.marker draft.nextNote)
  have current : draft.openNote.blocks.flatMap Block.marks =
      before ++ .reference (count + 1) :: after ++
        [.note (count + 1), .back (count + 1)] := by
    have grown : draft.openNote.blocks =
        (draft.put (.marker draft.nextNote)).blocks ++
          [.note ⟨draft.nextNote, [⟨.unset, []⟩]⟩] := rfl
    rw [grown, List.flatMap_append, put, numbered.next]
    simp [Block.marks, Block.ownMarks, Block.items, Item.marks]
  have parts : draft.openNote.parts = draft.parts := rfl
  have paired : Paired (before ++ after) := split ▸ numbered.current
  refine ⟨congrArg (· + 1) numbered.next, ?_, numbered.closed,
    current ▸ paired.opening (count + 1)⟩
  have ordered := numbered.ordered
  rw [marks, split] at ordered
  rw [marks, parts, current, List.range'_1_concat, ← ordered]
  simp [notes, List.filterMap_cons, Mark.note?, Nat.add_comm]

/-! ### Lines -/

theorem Numbered.redirect {count : Nat} {draft next : Draft} (numbered : draft.Numbered count)
    (sound : draft.Sound) {line : Directive} (kind : line.kind = .destination)
    (redirects : draft.redirect line = .ok next) :
    next.Numbered (count + noteCount [.directive line]) := by
  have unlinked : Numbered count { draft with link := none } := numbered.of_same ⟨rfl, rfl, rfl⟩
  have counted : noteCount [.directive line] = if line.target = .known .note then 1 else 0 := by
    simp [noteCount, Line.opensNote, kind]
  cases redirects_of_ok redirects with
  | body target =>
      rw [counted, target]
      exact numbered.of_same ⟨rfl, rfl, rfl⟩
  | note target =>
      rw [counted, target]
      exact unlinked.openNote sound.unlinked
  | cell target opens =>
      rw [counted, target]
      exact unlinked.of_same (sameMarks_openCell opens)
  | head target =>
      rw [counted, target]
      exact unlinked.openHead

theorem Numbered.obey {count : Nat} {draft next : Draft} (numbered : draft.Numbered count)
    (sound : draft.Sound) {line : Directive} (obeyed : draft.obey line = .ok next) :
    next.Numbered (count + noteCount [.directive line]) := by
  have noteless (other : line.kind ≠ .destination) : noteCount [.directive line] = 0 := by
    simp [noteCount, Line.opensNote, other]
  cases obeys_of_ok obeyed with
  | destination kind redirects => exact numbered.redirect sound kind redirects
  | newSection kind =>
      rw [noteless (by simp [kind])]
      exact numbered.newSection line
  | newParagraph kind =>
      rw [noteless (by simp [kind])]
      exact numbered.of_same (sameMarks_newParagraph sound line)
  | hint kind | blob kind =>
      rw [noteless (by simp [kind])]
      exact numbered.of_same ⟨rfl, rfl, rfl⟩
  | link kind =>
      rw [noteless (by simp [kind])]
      exact numbered.of_same ⟨rfl, rfl, marks_put draft rfl⟩
  | anchor kind =>
      rw [noteless (by simp [kind])]
      exact numbered.of_same (sameMarks_put draft rfl)
  | image kind shown =>
      rw [noteless (by simp [kind])]
      exact numbered.of_same (sameMarks_newImage shown)
  | table kind declared =>
      rw [noteless (by simp [kind])]
      exact numbered.of_same (sameMarks_newTable declared)

theorem Numbered.step {count : Nat} {draft next : Draft} (numbered : draft.Numbered count)
    (sound : draft.Sound) {line : Line} (stepped : draft.step line = .ok next) :
    next.Numbered (count + noteCount [line]) := by
  cases line with
  | directive line =>
      refine Numbered.obey ?_ (sound.ready _) stepped
      split
      · exact numbered.of_same ⟨rfl, rfl, rfl⟩
      · exact numbered
  | run run =>
      cases stepped
      refine Numbered.of_same ?_ (sameMarks_addRun _ run)
      split
      · exact numbered.of_same ⟨rfl, rfl, rfl⟩
      · exact numbered
  | foreign shown => cases stepped

theorem numbered_start : start.Numbered 0 := ⟨rfl, rfl, by simp [start], paired_nil⟩

/-- After any lines, the notes are numbered from one to as many as were opened. -/
theorem Numbered.run {count : Nat} {draft last : Draft} (numbered : draft.Numbered count)
    (sound : draft.Sound) {lines : List Line} (ran : draft.run lines = .ok last) :
    last.Numbered (count + noteCount lines) := by
  induction lines generalizing count draft with
  | nil =>
      cases ran
      exact numbered
  | cons line rest inductionHypothesis =>
      obtain ⟨next, stepped, following⟩ := run_cons_ok ran
      have counted : noteCount ([line] ++ rest) = noteCount [line] + noteCount rest :=
        List.countP_append
      rw [← List.singleton_append, counted, ← Nat.add_assoc]
      exact inductionHypothesis (numbered.step sound stepped) (sound.step stepped) following

/-! ### Marks in the markup -/

/-- A note begins as the note with a number does, whatever the way back leads
to. -/
def Mark.Shown : Mark → Node → Prop
  | .reference number, node => node = Pass.noteMarker number
  | .note number, node => BeginsNote number node
  | .back number, node => node = backNode number

theorem classes_noteMarker (number : Nat) : (Pass.noteMarker number).classes = ["to-note"] := by
  change Text.words "to-note" = _
  decide

theorem classes_backNode (number : Nat) : (backNode number).classes = ["from-note"] := by
  change Text.words "from-note" = _
  decide

theorem tag_of_isNote {node : Node} (noted : node.isNote = true) : node.tag = "aside" := by
  simpa [isNote, isTagged] using noted

theorem isReference_noteMarker (number : Nat) : (Pass.noteMarker number).isReference = true := by
  rw [isReference, classes_noteMarker]
  rfl

theorem isBack_backNode (number : Nat) : (backNode number).isBack = true := by
  rw [isBack, classes_backNode]
  rfl

theorem isReference_shown {mark : Mark} {node : Node} (shown : mark.Shown node) :
    node.isReference = mark.reference?.isSome := by
  cases mark with
  | reference number =>
      cases shown
      exact isReference_noteMarker number
  | note number =>
      simp [isReference, isTagged, tag_of_isNote shown.1, Mark.reference?]
  | back number =>
      cases shown
      rw [isReference, classes_backNode]
      rfl

theorem isBack_shown {mark : Mark} {node : Node} (shown : mark.Shown node) :
    node.isBack = mark.back?.isSome := by
  cases mark with
  | reference number =>
      cases shown
      rw [isBack, classes_noteMarker]
      rfl
  | note number =>
      simp [isBack, isTagged, tag_of_isNote shown.1, Mark.back?]
  | back number =>
      cases shown
      exact isBack_backNode number

theorem refersTo_shown {mark : Mark} {node : Node} (shown : mark.Shown node) (wanted : Nat) :
    node.refersTo wanted = (mark.reference? == some wanted) := by
  have referred := isReference_shown shown
  rw [Bool.eq_iff_iff]
  cases mark with
  | reference number =>
      cases shown
      have text : (Pass.noteMarker number).text = some (toString number) := rfl
      have name : (Pass.noteMarker number).get? "name" = some s!"note-return-{number}" := rfl
      have href : (Pass.noteMarker number).get? "href" = some s!"#note-{number}" := rfl
      simp [refersTo, referred, text, name, href, Mark.reference?]
  | note number | back number => simp [refersTo, referred, Mark.reference?]

theorem leadsBackFrom_shown {mark : Mark} {node : Node} (shown : mark.Shown node)
    (wanted : Nat) : node.leadsBackFrom wanted = (mark.back? == some wanted) := by
  have back := isBack_shown shown
  rw [Bool.eq_iff_iff]
  cases mark with
  | back number =>
      cases shown
      have name : (backNode number).get? "name" = some s!"note-{number}" := rfl
      have href : (backNode number).get? "href" = some s!"#note-return-{number}" := rfl
      simp [leadsBackFrom, back, name, href, Mark.back?]
  | reference number | note number => simp [leadsBackFrom, back, Mark.back?]

theorem countP_shown {test : Node → Bool} {chosen : Mark → Bool}
    (same : ∀ {mark node}, mark.Shown node → test node = chosen mark) {marks : List Mark}
    {nodes : List Node} (shown : List.Forall₂ Mark.Shown marks nodes) :
    nodes.countP test = marks.countP chosen := by
  induction shown with
  | nil => rfl
  | cons first _ inductionHypothesis =>
      rw [List.countP_cons, List.countP_cons, inductionHypothesis, same first]

theorem forall₂_notes {marks : List Mark} {nodes : List Node}
    (shown : List.Forall₂ Mark.Shown marks nodes) :
    List.Forall₂ BeginsNote (notes marks) (nodes.filter isNote) := by
  induction shown with
  | nil => exact .nil
  | @cons mark node marks nodes first _ inductionHypothesis =>
      cases mark with
      | reference number | back number =>
          cases first
          exact inductionHypothesis
      | note number =>
          rw [List.filter_cons_of_pos first.1]
          exact .cons first inductionHypothesis

theorem exists_shown_sublist {marks few : List Mark} (sublist : few.Sublist marks)
    {nodes : List Node} (shown : List.Forall₂ Mark.Shown marks nodes) :
    ∃ fewNodes, fewNodes.Sublist nodes ∧ List.Forall₂ Mark.Shown few fewNodes := by
  induction sublist generalizing nodes with
  | slnil => exact ⟨[], nodes.nil_sublist, .nil⟩
  | cons mark _ inductionHypothesis =>
      obtain ⟨node, others, -, following, rfl⟩ := List.forall₂_cons_left_iff.mp shown
      obtain ⟨fewNodes, within, few⟩ := inductionHypothesis following
      exact ⟨fewNodes, within.cons node, few⟩
  | cons_cons mark _ inductionHypothesis =>
      obtain ⟨node, others, first, following, rfl⟩ := List.forall₂_cons_left_iff.mp shown
      obtain ⟨fewNodes, within, few⟩ := inductionHypothesis following
      exact ⟨node :: fewNodes, within.cons_cons node, .cons first few⟩

/-! ### Marks of items, blocks and parts -/

theorem selective_isNoteElement : Selective isNoteElement where
  tailless element tail := rfl
  tagged element passes := by
    simp only [isNoteElement, isNoteLink, isReference, isBack, isNote, isTagged, Bool.or_eq_true,
      Bool.and_eq_true, List.contains_iff_mem, List.mem_singleton] at passes
    rcases passes with (⟨tagged, -⟩ | ⟨tagged, -⟩) | tagged <;> simp [tagged]

theorem isNoteLink_of_classless {element : Node} (classless : element.get? "class" = none) :
    element.isNoteLink = false := by
  have classes : element.classes = Text.words "" := by
    rw [Element.classes, classless]
    rfl
  have none : element.classes = [] := classes.trans (by decide)
  simp [isNoteLink, isReference, isBack, none]

theorem not_isNoteElement_of_classless {element : Node} (classless : element.get? "class" = none)
    (other : element.tag ≠ "aside") : element.isNoteElement = false := by
  simp [isNoteElement, isNoteLink_of_classless classless, isNote, isTagged, other]

theorem shown_item (item : Item) :
    List.Forall₂ Mark.Shown item.marks (item.picked isNoteElement) := by
  have unmarked {node : Node} (stands : item.node? = some node)
      (classless : node.get? "class" = none) (other : node.tag ≠ "aside") :
      item.picked isNoteElement = [] := by
    simp [Item.picked, stands, not_isNoteElement_of_classless classless other]
  cases item with
  | text run => exact .nil
  | link address hint runs =>
      rw [unmarked rfl]
      · exact .nil
      · rw [linkNode_eq_flow, get?_eq_of_shell (shell_flow _ _), get?_hinted (by decide)]
        rfl
      · simp [(isAnchor_linkNode address hint runs).1]
  | anchor name =>
      rw [unmarked rfl rfl (by simp [anchorNode, Element.new])]
      exact .nil
  | image source hint =>
      rw [unmarked rfl]
      · exact .nil
      · rw [imageNode, get?_hinted (by decide)]
        rfl
      · simp [(isImage_imageNode source hint).1]
  | marker number =>
      have passes : (Pass.noteMarker number).isNoteElement = true := by
        simp [isNoteElement, isNoteLink, isReference_noteMarker]
      simp [Item.picked, Item.node?, passes, Item.marks, Mark.Shown]

theorem shown_flatMap {Thing : Type} {marked : Thing → List Mark} {picked : Thing → List Node}
    (shown : ∀ thing, List.Forall₂ Mark.Shown (marked thing) (picked thing))
    (things : List Thing) :
    List.Forall₂ Mark.Shown (things.flatMap marked) (things.flatMap picked) := by
  induction things with
  | nil => exact .nil
  | cons thing rest inductionHypothesis =>
      exact List.rel_append (shown thing) inductionHypothesis

/-- The note elements in a block, in the order of its marks. -/
theorem shown_block (block : Block) :
    List.Forall₂ Mark.Shown block.marks (block.picked isNoteElement) := by
  refine List.rel_append ?_ (shown_flatMap shown_item block.items)
  cases block with
  | note footnote =>
      have shown : (Mark.back footnote.number).Shown (backNode footnote.number) := rfl
      have begins : BeginsNote footnote.number footnote.node :=
        ⟨rfl, backNode footnote.number, _, rfl, by simp [leadsBackFrom_shown shown, Mark.back?]⟩
      have note : footnote.node.isNote = true := rfl
      simp [Block.ownMarks, isNoteElement, isNoteLink, isBack_backNode, note, Mark.Shown, begins]
  | _ => exact .nil

theorem shown_part (part : Part) :
    List.Forall₂ Mark.Shown part.marks (part.picked isNoteElement) := by
  cases part with
  | rule => exact .nil
  | closed part => exact shown_flatMap shown_block part.blocks

/-! ### Pruning keeps every mark -/

theorem marks_block_pruned (block : Block) : block.pruned.marks = block.marks := by
  rw [Block.marks, items_pruned]
  cases block <;> rfl

theorem marks_block_vacant {block : Block} (vacant : block.isVacant = true) :
    block.marks = [] := by
  cases block with
  | paragraph single => simp [Block.marks, Block.ownMarks, Block.items, items_of_vacant vacant]
  | _ => cases vacant

theorem marks_eq_told : Part.marks = Part.told Block.marks := by
  funext part
  cases part <;> rfl

theorem marks_part_pruned (part : Part) : part.pruned.marks = part.marks := by
  have pruned (block : Block) : block.pruned.marks = block.marks.map id := by
    rw [List.map_id, marks_block_pruned]
  rw [marks_eq_told, told_pruned (fun _ vacant => marks_block_vacant vacant) pruned, List.map_id]

theorem marks_part_vacant {part : Part} (vacant : part.isVacant = true) : part.marks = [] := by
  rw [marks_eq_told, told_vacant _ vacant]

theorem flatMap_marks_kept (draft : Draft) : draft.kept.flatMap Part.marks = draft.marks := by
  rw [kept, flatMap_filter_of_nil (fun part vacant => marks_part_vacant vacant), List.flatMap_map]
  simp [marks_part_pruned, ← flatMap_marks_closing]

/-- The note elements of a page, in the order of the marks of its draft. -/
theorem shown_page (options : Options) (document : Document) (draft : Draft) :
    List.Forall₂ Mark.Shown draft.marks
      (Element.picked isNoteElement (page options document draft)) := by
  rw [picked_page selective_isNoteElement, ← flatMap_marks_kept]
  exact shown_flatMap shown_part draft.kept

/-! ### Footnotes of a page -/

theorem backs_block (block : Block) : backs block.marks = notes block.marks := by
  have silent (item : Item) :
      item.marks.filterMap Mark.back? = [] ∧ item.marks.filterMap Mark.note? = [] := by
    cases item <;> exact ⟨rfl, rfl⟩
  have own : backs block.ownMarks = notes block.ownMarks := by
    cases block <;> rfl
  rw [backs, notes] at own ⊢
  simp [Block.marks, List.filterMap_append, List.filterMap_flatMap, silent, own]

theorem backs_flatMap {Thing : Type} {marked : Thing → List Mark}
    (same : ∀ thing, backs (marked thing) = notes (marked thing)) (things : List Thing) :
    backs (things.flatMap marked) = notes (things.flatMap marked) := by
  rw [backs, notes, List.filterMap_flatMap, List.filterMap_flatMap]
  exact congrArg (things.flatMap ·) (funext same)

theorem backs_part (part : Part) : backs part.marks = notes part.marks := by
  cases part with
  | rule => rfl
  | closed part => exact backs_flatMap backs_block part.blocks

theorem perm_flatMap {parts : List Part} (paired : ∀ part ∈ parts, Paired part.marks) :
    (references (parts.flatMap Part.marks)).Perm (notes (parts.flatMap Part.marks)) := by
  induction parts with
  | nil => exact .nil
  | cons part rest inductionHypothesis =>
      rw [List.flatMap_cons, references_append, notes_append]
      exact (paired part List.mem_cons_self).perm.append
        (inductionHypothesis fun other member => paired other (List.mem_cons_of_mem part member))

/-- A section that shows a note is a section of the page. -/
theorem mem_sections_page (options : Options) (document : Document) {draft : Draft} {part : Part}
    (member : part ∈ draft.parts ++ [.closed draft.current]) (marked : part.marks ≠ []) :
    part.pruned.node ∈ (page options document draft).sections := by
  have stays : part.pruned.isVacant = false := by
    cases vacant : part.pruned.isVacant with
    | false => rfl
    | true => exact absurd ((marks_part_pruned part).symm.trans (marks_part_vacant vacant)) marked
  have isSection : part.pruned.node.isTagged ["section"] = true := by
    cases part with
    | rule => exact absurd rfl marked
    | closed part => simp [Part.pruned, Part.node, Element.isTagged]
  have kept : part.pruned ∈ draft.kept :=
    List.mem_filter.mpr ⟨List.mem_map_of_mem member, by simp [stays]⟩
  rw [sections_page]
  exact List.mem_filter.mpr ⟨List.mem_map_of_mem kept, isSection⟩

theorem detached_of_shown {part : Part} {few : List Mark} (sublist : few.Sublist part.marks) :
    ∃ elements : List Node, elements.Sublist part.node.elements ∧
      List.Forall₂ Mark.Shown few (elements.map detached) := by
  obtain ⟨nodes, within, shown⟩ := exists_shown_sublist sublist (shown_part part)
  rw [← picked_part selective_isNoteElement, picked] at within
  obtain ⟨elements, chosen, rfl⟩ := List.sublist_map_iff.mp within
  exact ⟨elements, chosen.trans List.filter_sublist, shown⟩

theorem isNoteElement_of_isReference {element : Node} (chosen : element.isReference = true) :
    element.isNoteElement = true := by
  simp [isNoteElement, isNoteLink, chosen]

theorem isNoteElement_of_isBack {element : Node} (chosen : element.isBack = true) :
    element.isNoteElement = true := by
  simp [isNoteElement, isNoteLink, chosen]

/-- Note elements of a page are counted by their marks. -/
theorem countP_page {test : Node → Bool} {chosen : Mark → Bool}
    (tailless : ∀ element, test element.detached = test element)
    (narrow : ∀ element, test element = true → element.isNoteElement = true)
    (same : ∀ {mark node}, mark.Shown node → test node = chosen mark) (options : Options)
    (document : Document) (draft : Draft) :
    (page options document draft).elements.countP test = draft.marks.countP chosen := by
  rw [← countP_picked tailless narrow, countP_shown same (shown_page options document draft)]

theorem backs_marks (draft : Draft) : backs draft.marks = notes draft.marks := by
  rw [← flatMap_marks_closing]
  exact backs_flatMap backs_part _

namespace Numbered

variable {count : Nat} {draft : Draft} (numbered : draft.Numbered count)
include numbered

theorem perm_references : (references draft.marks).Perm (notes draft.marks) := by
  rw [← flatMap_marks_closing]
  exact perm_flatMap numbered.closing

theorem count_notes {number : Nat} (positive : 1 ≤ number) (bounded : number ≤ count) :
    (notes draft.marks).count number = 1 := by
  have listed : number ∈ List.range' 1 count := List.mem_range'_1.mpr ⟨positive, by omega⟩
  rw [numbered.ordered, (List.nodup_range' 1).count, if_pos listed]

/-- The section of a note has the reference to it in front of it. -/
theorem paired_page (options : Options) (document : Document) {number : Nat}
    (positive : 1 ≤ number) (bounded : number ≤ count) :
    ∃ part ∈ (page options document draft).sections, ∃ reference note,
      [reference, note].Sublist part.elements ∧
        refersTo number reference = true ∧ BeginsNote number note := by
  have opened : number ∈ notes draft.marks := by
    rw [← List.count_pos_iff, numbered.count_notes positive bounded]
    exact Nat.one_pos
  rw [← flatMap_marks_closing, notes, List.filterMap_flatMap] at opened
  obtain ⟨part, member, inPart⟩ := List.mem_flatMap.mp opened
  have before := (numbered.closing part member).before number inPart
  have marked : part.marks ≠ [] := List.ne_nil_of_mem (before.subset List.mem_cons_self)
  rw [← marks_part_pruned] at before
  obtain ⟨elements, within, shown⟩ := detached_of_shown before
  rw [List.forall₂_map_right_iff] at shown
  obtain ⟨reference, others, refers, following, rfl⟩ := List.forall₂_cons_left_iff.mp shown
  obtain ⟨note, none, begins, ending, rfl⟩ := List.forall₂_cons_left_iff.mp following
  obtain rfl := List.forall₂_nil_left_iff.mp ending
  have referred := refersTo_shown refers number
  rw [Mark.reference?, beq_self_eq_true] at referred
  exact ⟨_, mem_sections_page options document member marked, reference, note, within, referred,
    begins⟩

/-- A draft whose notes are numbered has a page whose notes are. -/
theorem footnoted (options : Options) (document : Document) :
    Footnoted count (page options document draft) where
  references := by
    rw [countP_page (fun _ => rfl) (fun _ => isNoteElement_of_isReference) isReference_shown,
      ← List.length_filterMap_eq_countP, ← Draft.references, numbered.perm_references.length_eq,
      numbered.ordered, List.length_range']
  backs := by
    rw [countP_page (fun _ => rfl) (fun _ => isNoteElement_of_isBack) isBack_shown,
      ← List.length_filterMap_eq_countP, ← Draft.backs, backs_marks, numbered.ordered,
      List.length_range']
  reference_unique number positive bounded := by
    have narrow (element : Node) (refers : element.refersTo number = true) :
        element.isNoteElement = true := by
      simp only [refersTo, Bool.and_eq_true] at refers
      exact isNoteElement_of_isReference refers.1.1.1
    rw [countP_page (fun _ => rfl) narrow (refersTo_shown · number), ← List.count_filterMap,
      ← Draft.references, numbered.perm_references.count_eq,
      numbered.count_notes positive bounded]
  back_unique number positive bounded := by
    have narrow (element : Node) (leads : element.leadsBackFrom number = true) :
        element.isNoteElement = true := by
      simp only [leadsBackFrom, Bool.and_eq_true] at leads
      exact isNoteElement_of_isBack leads.1.1
    rw [countP_page (fun _ => rfl) narrow (leadsBackFrom_shown · number), ← List.count_filterMap,
      ← Draft.backs, backs_marks, numbered.count_notes positive bounded]
  notes := by
    have noted := forall₂_notes (shown_page options document draft)
    rw [filter_picked (fun _ => rfl) (fun _ isNote => by simp [isNoteElement, isNote]),
      numbered.ordered, List.forall₂_map_right_iff] at noted
    exact noted
  paired number positive bounded := numbered.paired_page options document positive bounded

end Numbered

end Draft

open Draft

/-- The notes of a rendered page are numbered from one to the number of lines that
open a note.  Each is referred to once and leads back once, the reference stands in
front of the note in the section of the note, and pruning takes none of them
out. -/
theorem renderTree_footnoted {options : Options} {document : Document} {page : Node}
    (rendered : renderTree options document = .ok page) :
    Footnoted (noteCount document.lines) page ∧
      ∃ pass removed, (initialPass options document).run document.lines = .ok pass ∧
        (assemble (Page.head options.stylesheets document) pass.body).prune = (page, removed) ∧
        pass.nextNote = noteCount document.lines + 1 ∧
        ∀ element ∈ removed, element.elements.countP isNoteElement = 0 := by
  obtain ⟨draft, ran, rfl⟩ := renderTree_ok rendered
  have numbered := numbered_start.run sound_start ran
  rw [Nat.zero_add] at numbered
  have agree := agree_initialPass options document document.lines
  rw [ran] at agree
  obtain ⟨pass, passed, depicts⟩ := agree.of_ok
  refine ⟨numbered.footnoted options document, pass, _, passed,
    Prod.ext (prune_assemble options document depicts) rfl,
    depicts.nextNote.trans numbered.next, fun element gone => ?_⟩
  have vanishes := Element.vanishes_of_mem_prune
    (assemble (Page.head options.stylesheets document) pass.body) element gone
  simp only [Element.vanishes, Element.isPrunable, prunableTags, Bool.and_eq_true,
    List.contains_iff_mem, List.mem_cons, List.not_mem_nil, or_false, List.isEmpty_iff] at vanishes
  obtain ⟨⟨tagged, childless⟩, -⟩ := vanishes
  have unnoted : element.isNoteElement = false := by
    rcases tagged with tagged | tagged <;> exact selective_isNoteElement.fails tagged (by decide)
  simp [elements_eq, childless, unnoted]

/-- A note opened from a note, and a third one from a cell in front of both. -/
def nestedNotes : Document where
  lines :=
    [.directive { Directive.plain .table with content := .number 1 },
      .directive { Directive.plain .destination with target := .known .note },
      .run ⟨"a", .plain, false⟩,
      .directive { Directive.plain .destination with target := .known .note },
      .directive { Directive.plain .destination with target := .known .cell },
      .directive { Directive.plain .destination with target := .known .note }]
  metadata := []
  showsMetadata := false

theorem renderTree_footnoted_nestedNotes :
    ∃ page, renderTree .standard nestedNotes = .ok page ∧ Footnoted 3 page := by
  obtain ⟨page, rendered⟩ : ∃ page, renderTree .standard nestedNotes = .ok page := by
    rw [Draft.renderTree_eq_page]
    exact ⟨_, rfl⟩
  exact ⟨page, rendered, (renderTree_footnoted rendered).1⟩

end Folio
