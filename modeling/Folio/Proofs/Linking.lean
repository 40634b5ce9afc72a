import Folio.Proofs.Events
import Folio.Proofs.Situations

/-!
# Text inside links

A link holds the text of the lines after it until it is dropped: by a line that resets,
by another link, a section, a paragraph or a change of destination.  When content goes
to the running text of the section or to a heading, a table drops it as well, since what
follows begins anew behind the table.  Whether a link takes a text is therefore a matter
of the lines between the two, and text that no link takes stands in no link.
-/

namespace Folio

open Markup Render

/-- The ways to choose an item of a list, each with the items before and after it. -/
def splits {Item : Type} : List Item → List (List Item × Item × List Item)
  | [] => []
  | item :: rest =>
      ([], item, rest) ::
        (splits rest).map fun (before, chosen, after) => (item :: before, chosen, after)

theorem exists_mem_splits_cons {Item : Type} {holds : List Item × Item × List Item → Prop}
    (item : Item) (rest : List Item) :
    (∃ choice ∈ splits (item :: rest), holds choice) ↔
      holds ([], item, rest) ∨
        ∃ choice ∈ splits rest, holds (item :: choice.1, choice.2.1, choice.2.2) := by
  constructor
  · rintro ⟨choice, member, chosen⟩
    rcases List.mem_cons.mp member with rfl | later
    · exact .inl chosen
    · obtain ⟨inRest, memberOfRest, rfl⟩ := List.mem_map.mp later
      exact .inr ⟨inRest, memberOfRest, chosen⟩
  · rintro (first | ⟨inRest, member, chosen⟩)
    · exact ⟨_, List.mem_cons_self, first⟩
    · exact ⟨_, List.mem_cons_of_mem _ (List.mem_map_of_mem member), chosen⟩

/-- Whether a line is a directive of one of the given kinds. -/
def Line.isKind (kinds : List DirectiveKind) : Line → Bool
  | .directive line => kinds.contains line.kind
  | _ => false

/-- A link takes a run, given the lines between them and the destination of the run. -/
structure Encloses (link : Line) (between : List Line) (destination : Destination)
    (run : TextRun) : Prop where
  isLink : link.isKind [.link] = true
  latest : ∀ line ∈ between, line.isKind [.link] = false
  unreset : ∀ line ∈ between ++ [.run run], line.resets = false
  uninterrupted :
    ∀ line ∈ between, line.isKind [.newSection, .newParagraph, .destination] = false
  tableless : destination = .body ∨ destination = .head →
    ∀ line ∈ between, line.isKind [.table] = false

instance (link : Line) (between : List Line) (destination : Destination) (run : TextRun) :
    Decidable (Encloses link between destination run) :=
  decidable_of_iff
    (link.isKind [.link] = true ∧ (∀ line ∈ between, line.isKind [.link] = false) ∧
      (∀ line ∈ between ++ [.run run], line.resets = false) ∧
      (∀ line ∈ between, line.isKind [.newSection, .newParagraph, .destination] = false) ∧
      (destination = .body ∨ destination = .head →
        ∀ line ∈ between, line.isKind [.table] = false))
    ⟨fun ⟨isLink, latest, unreset, uninterrupted, tableless⟩ =>
        ⟨isLink, latest, unreset, uninterrupted, tableless⟩,
      fun ⟨isLink, latest, unreset, uninterrupted, tableless⟩ =>
        ⟨isLink, latest, unreset, uninterrupted, tableless⟩⟩

/-- Where content goes behind some lines. -/
def destinationAfter (lines : List Line) : Destination :=
  (Situation.reached lines).cursor.destination

/-- Whether one of the lines before a run is a link that takes it. -/
def Enclosed (before : List Line) (run : TextRun) : Prop :=
  ∃ choice ∈ splits before, Encloses choice.2.1 choice.2.2 (destinationAfter before) run

instance (before : List Line) (run : TextRun) : Decidable (Enclosed before run) :=
  inferInstanceAs (Decidable (∃ choice ∈ splits before, _))

/-- Whether a line is a run that a link takes. -/
def isEnclosed (before : List Line) : Line → Bool
  | .run run => decide (Enclosed before run)
  | _ => false

/-- The runs among later lines that a line takes, when it is a link. -/
def enclosedBy (before : List Line) (link : Line) (after : List Line) : List TextRun :=
  (splits after).flatMap fun (between, later, _) =>
    match later with
    | .run run =>
        if Encloses link between (destinationAfter (before ++ link :: between)) run then [run]
        else []
    | _ => []

/-- What a line puts on one side of the page: nothing of a run that a link takes, and
those runs inside the link. -/
def entriesOfLine (inTable : Bool) (before : List Line) (line : Line) (after : List Line) :
    List Draft.Entry :=
  ((Situation.reached before).ready line).entriesOn inTable (isEnclosed before line)
    (enclosedBy before line after) line

/-- What is met of a line on one side of the page. -/
def eventsOfLine (inTable : Bool) (before : List Line) (line : Line) (after : List Line) :
    List Event :=
  (entriesOfLine inTable before line after).flatMap Draft.Entry.events

/-! ### Lines that leave a link open -/

theorem leavesOpen_iff {destination : Destination} {line : Line} :
    line.leavesOpen destination = true ↔
      line.resets = false ∧ line.isKind [.link] = false ∧
        line.isKind [.newSection, .newParagraph, .destination] = false ∧
        (destination = .body ∨ destination = .head → line.isKind [.table] = false) := by
  cases line with
  | run run => simp [Line.leavesOpen, Line.isKind]
  | foreign shown => simp [Line.leavesOpen, Line.isKind]
  | directive line =>
      have tables : (destination = .note ∨ destination = .cell) ↔
          ¬(destination = .body ∨ destination = .head) := by
        cases destination <;> decide
      cases kind : line.kind <;>
        simp [Line.leavesOpen, Directive.leavesOpen, Line.isKind, kind, tables]

/-- A link takes a run when all lines between them leave it open. -/
theorem encloses_iff {link : Line} {between : List Line} {destination : Destination}
    {run : TextRun} :
    Encloses link between destination run ↔
      link.isKind [.link] = true ∧
        (∀ line ∈ between, line.leavesOpen destination = true) ∧ run.reset = false := by
  constructor
  · intro encloses
    refine ⟨encloses.isLink, fun line member => ?_, encloses.unreset (.run run) (by simp)⟩
    exact leavesOpen_iff.mpr ⟨encloses.unreset line (List.mem_append_left _ member),
      encloses.latest line member, encloses.uninterrupted line member,
      fun outside => encloses.tableless outside line member⟩
  · rintro ⟨isLink, leaves, unreset⟩
    have left (line : Line) (member : line ∈ between) := leavesOpen_iff.mp (leaves line member)
    refine ⟨isLink, fun line member => (left line member).2.1, fun line member => ?_,
      fun line member => (left line member).2.2.1,
      fun outside line member => (left line member).2.2.2 outside⟩
    rcases List.mem_append.mp member with inBetween | isRun
    · exact (left line inBetween).1
    · rw [List.mem_singleton.mp isRun]
      exact unreset

theorem cursor_after (situation : Situation) (line : Line) :
    (situation.after line).cursor = situation.cursor.after line := by
  have ready : (situation.ready line).cursor = situation.cursor := by
    unfold Situation.ready
    split <;> rfl
  cases line with
  | directive line => exact congrArg (Cursor.after · (.directive line)) ready
  | run run => exact ready
  | foreign shown => exact ready

/-- Lines that leave a link open send nothing elsewhere. -/
theorem destination_of_leavesOpen {destination : Destination} {lines : List Line}
    (leaves : ∀ line ∈ lines, line.leavesOpen destination = true) (situation : Situation) :
    (lines.foldl Situation.after situation).cursor.destination = situation.cursor.destination := by
  induction lines generalizing situation with
  | nil => rfl
  | cons line rest inductionHypothesis =>
      have first := leaves line List.mem_cons_self
      rw [List.foldl_cons, inductionHypothesis fun later member =>
          leaves later (List.mem_cons_of_mem _ member),
        cursor_after, Draft.destination_after first]

theorem isOpen_after (situation : Situation) (line : Line) :
    (situation.after line).isOpen =
      (line.isKind [.link] ||
        situation.isOpen && line.leavesOpen situation.cursor.destination) := by
  have ready : (situation.ready line).isOpen = (situation.isOpen && !line.resets) := by
    unfold Situation.ready
    cases line.resets <;> simp
  cases line with
  | run run => simpa [Situation.after, Line.isKind, Line.leavesOpen] using ready
  | foreign shown => simpa [Situation.after, Line.isKind, Line.leavesOpen] using ready
  | directive line =>
      have cursor : (situation.ready (.directive line)).cursor = situation.cursor := by
        unfold Situation.ready
        split <;> rfl
      simp [Situation.after, Situation.obey, Line.isKind, Line.leavesOpen, ready, cursor,
        Bool.and_assoc]
      rfl

/-! ### The open link -/

/-- A link is open behind some lines when it was open in front of them and all of them
leave it open, or when one of them is a link and those after it leave it open. -/
theorem isOpen_foldl (situation : Situation) (lines : List Line) :
    (lines.foldl Situation.after situation).isOpen = true ↔
      (situation.isOpen = true ∧ ∀ line ∈ lines, line.leavesOpen
          (lines.foldl Situation.after situation).cursor.destination = true) ∨
        ∃ choice ∈ splits lines, choice.2.1.isKind [.link] = true ∧
          ∀ line ∈ choice.2.2, line.leavesOpen
            (lines.foldl Situation.after situation).cursor.destination = true := by
  induction lines generalizing situation with
  | nil => simp [splits]
  | cons line rest inductionHypothesis =>
      rw [List.foldl_cons, inductionHypothesis, isOpen_after]
      generalize final : (rest.foldl Situation.after (situation.after line)).cursor.destination =
        destination
      -- Lines that leave the link open keep the destination, so it is the same in front.
      have same (leaves : ∀ later ∈ rest, later.leavesOpen destination = true) :
          line.leavesOpen situation.cursor.destination = line.leavesOpen destination := by
        have kept : (situation.after line).cursor.destination = destination := by
          rw [← final, destination_of_leavesOpen (final ▸ leaves)]
        rw [Bool.eq_iff_iff]
        constructor
        · intro first
          rwa [← kept, cursor_after, Draft.destination_after first]
        · intro first
          rwa [← kept, cursor_after, Draft.destination_after first] at first
      rw [exists_mem_splits_cons, List.forall_mem_cons]
      by_cases leaves : ∀ later ∈ rest, later.leavesOpen destination = true
      · simp only [same leaves, Bool.or_eq_true, Bool.and_eq_true, eq_true leaves, and_true]
        rw [or_comm (a := line.isKind [.link] = true), or_assoc]
      · simp only [leaves, and_false, false_or]

theorem isEnclosed_run (before : List Line) (run : TextRun) :
    isEnclosed before (.run run) = ((Situation.reached before).ready (.run run)).isOpen := by
  have enclosed : Enclosed before run ↔
      (Situation.reached before).isOpen = true ∧ run.reset = false := by
    have opened := isOpen_foldl .start before
    simp only [Situation.start, Bool.false_eq_true, false_and, false_or] at opened
    rw [Situation.reached, Situation.start, opened]
    constructor
    · rintro ⟨choice, member, encloses⟩
      obtain ⟨isLink, leaves, unreset⟩ := encloses_iff.mp encloses
      exact ⟨⟨choice, member, isLink, leaves⟩, unreset⟩
    · rintro ⟨⟨choice, member, isLink, leaves⟩, unreset⟩
      exact ⟨choice, member, encloses_iff.mpr ⟨isLink, leaves, unreset⟩⟩
  rw [isEnclosed, Situation.ready, Bool.eq_iff_iff, decide_eq_true_iff, enclosed]
  cases reset : run.reset <;> simp [Line.resets, reset]

/-! ### The runs inside a link -/

theorem flatMap_takeWhile {Item Told : Type} (stays : Item → Bool) (tell : Item → List Told)
    (items : List Item) :
    (items.takeWhile stays).flatMap tell =
      (splits items).flatMap fun (before, chosen, _) =>
        if before.all stays && stays chosen then tell chosen else [] := by
  induction items with
  | nil => rfl
  | cons item rest inductionHypothesis =>
      rw [List.takeWhile_cons, splits, List.flatMap_cons, List.flatMap_map]
      cases first : stays item with
      | false => simp [first]
      | true => simp [first, inductionHypothesis]

/-- The runs that a link takes are those of the lines that leave it open. -/
theorem enclosedBy_link (before after : List Line) {line : Directive} (kind : line.kind = .link) :
    enclosedBy before (.directive line) after =
      Draft.inLink (destinationAfter before) after := by
  let behind : Situation := (Situation.reached before).after (.directive line)
  have passed : behind.cursor.destination = destinationAfter before := by
    rw [cursor_after]
    simp [Cursor.after, kind, destinationAfter]
  have reached (between : List Line) : destinationAfter (before ++ .directive line :: between) =
      (between.foldl Situation.after behind).cursor.destination := by
    rw [destinationAfter, Situation.reached, List.foldl_append]
    rfl
  have same (between : List Line) :
      (∀ later ∈ between, later.leavesOpen
          (destinationAfter (before ++ .directive line :: between)) = true) ↔
        ∀ later ∈ between, later.leavesOpen (destinationAfter before) = true := by
    constructor
    · intro leaves
      have kept := destination_of_leavesOpen leaves behind
      rw [← reached, passed] at kept
      rwa [kept] at leaves
    · intro leaves
      have kept := destination_of_leavesOpen leaves behind
      rw [← reached, passed] at kept
      rwa [kept]
  rw [Draft.inLink, flatMap_takeWhile, enclosedBy]
  refine congrArg (List.flatMap · (splits after)) (funext fun choice => ?_)
  obtain ⟨between, later, afterLater⟩ := choice
  cases later with
  | directive later => simp [Draft.runsOf]
  | foreign shown => simp [Draft.runsOf]
  | run run =>
      have iff : Encloses (.directive line) between
          (destinationAfter (before ++ .directive line :: between)) run ↔
            (between.all (·.leavesOpen (destinationAfter before)) &&
              (Line.run run).leavesOpen (destinationAfter before)) = true := by
        rw [encloses_iff, same]
        simp [Line.isKind, kind, Line.leavesOpen, Line.resets]
      exact ite_congr (propext iff) (fun _ => rfl) fun _ => rfl

/-! ### Whole runs -/

theorem entriesOf_reached (inTable : Bool) (front lines : List Line) :
    Draft.entriesOf inTable (Situation.reached front) lines =
      (splits lines).flatMap fun (before, line, after) =>
        entriesOfLine inTable (front ++ before) line after := by
  induction lines generalizing front with
  | nil => rfl
  | cons line rest inductionHypothesis =>
      have next : (Situation.reached front).after line = Situation.reached (front ++ [line]) := by
        rw [Situation.reached, Situation.reached, List.foldl_append]
        rfl
      have here : ((Situation.reached front).ready line).entriesOn inTable
          ((Situation.reached front).ready line).isOpen
          (Draft.inLink (Situation.reached front).cursor.destination rest) line =
            entriesOfLine inTable front line rest := by
        rw [entriesOfLine]
        cases line with
        | run run => rw [isEnclosed_run]; rfl
        | foreign shown => rfl
        | directive line =>
            cases kind : line.kind with
            | link => rw [enclosedBy_link front rest kind]; rfl
            | _ => simp [Situation.entriesOn, Situation.items, kind]
      rw [Draft.entriesOf, splits, List.flatMap_cons, List.flatMap_map, next, inductionHypothesis,
        here]
      simp

/-- The entries of a draft are those of its lines, each given those before and after. -/
theorem entriesOn_lines {draft : Draft} {lines : List Line}
    (ran : Draft.start.run lines = .ok draft) (inTable : Bool) :
    draft.entriesOn inTable =
      (splits lines).flatMap fun (before, line, after) =>
        entriesOfLine inTable before line after := by
  rw [Draft.entriesOn_of_run ran]
  exact entriesOf_reached inTable [] lines

/-- What is met in a rendered page, inside its tables or outside, is what is met of the
lines whose content went there, one after the other.  Text is met inside the link that
takes it, and text that no link takes inside none. -/
theorem renderTree_links {options : Options} {document : Document} {page : Node}
    (rendered : renderTree options document = .ok page) (inTable : Bool) :
    page.eventsOn inTable =
      (splits document.lines).flatMap fun (before, line, after) =>
        eventsOfLine inTable before line after := by
  obtain ⟨draft, ran, rfl⟩ := Draft.renderTree_ok rendered
  rw [Draft.eventsOn_page, entriesOn_lines ran, List.flatMap_assoc]
  rfl

/-- A link, text and an anchor behind it, a table and text behind that. -/
def linkBeforeTable : Document where
  lines :=
    [.directive { Directive.plain .link with content := .text "x" },
      .run ⟨"a", .plain, false⟩,
      .directive { Directive.plain .anchor with content := .text "n" },
      .run ⟨"b", { RunStyle.plain with bold := true }, false⟩,
      .directive { Directive.plain .table with content := .number 1 },
      .run ⟨"c", .plain, false⟩]
  metadata := []
  showsMetadata := false

theorem renderTree_links_linkBeforeTable :
    ∃ page, renderTree .standard linkBeforeTable = .ok page ∧
      page.eventsOn false =
        [.enter "a" [("href", "x")], .char 'a', .enter "strong" [], .char 'b', .leave "strong",
          .leave "a", .enter "a" [("name", "n")], .leave "a", .char 'c'] := by
  obtain ⟨page, rendered⟩ : ∃ page, renderTree .standard linkBeforeTable = .ok page := by
    rw [Draft.renderTree_eq_page]
    exact ⟨_, rfl⟩
  exact ⟨page, rendered, (renderTree_links rendered false).trans (by decide)⟩

end Folio
