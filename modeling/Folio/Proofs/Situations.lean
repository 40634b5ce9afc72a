import Folio.Proofs.Entries

/-!
# What lines put into a page

On each side of a page, inside tables and outside, entries stand in the order of the
lines that put them there: a line puts its entries behind all others on their side.
Text inside the open link is the only exception, and goes into the entry of that link.
What a line puts down depends on earlier lines only through the situation they lead to,
so the entries are known from the lines alone, once each link is given the runs that
later lines add to it.
-/

namespace Folio

open Markup Render

/-! ### What earlier lines leave for later ones -/

/-- Whether a directive leaves the link open.  A table does when content goes to a note
or a cell, for then the content that follows goes where it went before. -/
def Directive.leavesOpen (destination : Destination) (line : Directive) : Bool :=
  match line.kind with
  | .newSection | .newParagraph | .link | .destination => false
  | .table => destination == .note || destination == .cell
  | .hint | .anchor | .blob | .image => true

/-- Whether a link that is open in front of a line is open behind it. -/
def Line.leavesOpen (destination : Destination) (line : Line) : Bool :=
  !line.resets &&
    match line with
    | .directive line => line.leavesOpen destination
    | .run _ | .foreign _ => true

/-- What must be known of earlier lines to tell what a line puts into the page. -/
structure Situation where
  cursor : Cursor
  /-- Whether there is a link that text goes into. -/
  isOpen : Bool
  hint : Option String
  blob : Option Blob
  deriving DecidableEq, Repr

namespace Situation

def start : Situation := ⟨.start, false, none, none⟩

def inTable (situation : Situation) : Bool := situation.cursor.inTable

/-- The situation in which a line takes effect: one that resets has dropped link and
tooltip. -/
def ready (situation : Situation) (line : Line) : Situation :=
  if line.resets then { situation with isOpen := false, hint := none } else situation

def obey (situation : Situation) (line : Directive) : Situation where
  cursor := situation.cursor.after (.directive line)
  isOpen := line.kind == .link || situation.isOpen && line.leavesOpen situation.cursor.destination
  hint :=
    match line.kind with
    | .hint => some line.content.asText
    | .link | .image => none
    | _ => situation.hint
  blob :=
    match line.kind with
    | .blob => some ⟨line.mediaType, line.data⟩
    | .image => if line.content.isVoid then none else situation.blob
    | _ => situation.blob

def after (situation : Situation) (line : Line) : Situation :=
  match line with
  | .directive directive => (situation.ready line).obey directive
  | .run _ | .foreign _ => situation.ready line

/-- The situation that lines lead to. -/
def reached (lines : List Line) : Situation := lines.foldl after start

/-- The address of an image: its content, or else the waiting blob. -/
def source (situation : Situation) (line : Directive) : String :=
  if line.content.isVoid then (situation.blob.map Blob.address).getD "" else line.content.asText

/-- The items that a line puts where content goes.  A run is none when a link absorbs
it, and a link holds the runs inside it. -/
def items (situation : Situation) (absorbed : Bool) (inside : List TextRun) : Line → List Draft.Item
  | .run run => if absorbed then [] else [.text run]
  | .directive line =>
      match line.kind with
      | .link => [.link line.content.asText situation.hint inside]
      | .anchor => [.anchor line.content.asText]
      | .image => [.image (situation.source line) situation.hint]
      | .destination =>
          if line.target = .known .note then [.marker situation.cursor.nextNote] else []
      | _ => []
  | .foreign _ => []

/-- The way back in front of a note that a line opens. -/
def backs (situation : Situation) : Line → List Draft.Entry
  | .directive line =>
      if line.kind = .destination ∧ line.target = .known .note then
        [.back situation.cursor.nextNote]
      else []
  | _ => []

/-- The entries that a line puts on one side of the page. -/
def entriesOn (inTable : Bool) (situation : Situation) (absorbed : Bool) (inside : List TextRun)
    (line : Line) : List Draft.Entry :=
  (if situation.inTable = inTable then (situation.items absorbed inside line).map .item else []) ++
    if inTable then [] else situation.backs line

end Situation

namespace Draft

def situation (draft : Draft) : Situation :=
  ⟨draft.cursor, draft.openLink?.isSome, draft.hint, draft.blob⟩

theorem situation_ready (draft : Draft) (line : Line) :
    (if line.resets then draft.reset else draft).situation = draft.situation.ready line := by
  unfold Situation.ready
  split <;> rfl

/-! ### What each kind of line does -/

section

variable {draft next : Draft} {line : Directive} {runs : List TextRun} {inTable : Bool}

/-- What a line without an open link behind it puts into the page. -/
theorem Sound.entriesOn_of_closed (sound : draft.Sound) (closed : next.openLink? = none)
    {added : List Entry}
    (entries : next.entriesOn inTable = draft.entriesOn inTable ++ added) :
    (next.fillLink runs).entriesOn inTable =
      (draft.fillLink []).entriesOn inTable ++ added := by
  rw [fillLink_of_closed closed, sound.entriesOn_fillLink_nil, entries]

theorem entriesOn_newSection (draft : Draft) (line : Directive) (inTable : Bool) :
    (draft.newSection line).entriesOn inTable = draft.entriesOn inTable := by
  have vacant (empty : draft.blocks = []) :
      Part.told (Block.entriesOn inTable) (.closed draft.current) = [] := by
    rw [Part.told, show draft.current.blocks = [] from empty]
    rfl
  have current : (draft.newSection line).blocks = [] := rfl
  rw [entriesOn_eq, flatMap_newSection rfl vacant line, current, List.flatMap_nil,
    List.append_nil, entriesOn]

theorem Sound.entriesOn_newParagraph (sound : draft.Sound) (line : Directive) (inTable : Bool) :
    (draft.newParagraph line).entriesOn inTable = draft.entriesOn inTable := by
  have empty : (Block.paragraph ⟨line.alignment, []⟩).entriesOn inTable = [] :=
    entriesOn_of_empty rfl inTable
  have inside {index : Nat} (focus : draft.focus = .note index ∨ draft.focus = .cell index) :
      (draft.blocks.modify index (·.addParagraph line.alignment)).flatMap
          (Block.entriesOn inTable) = draft.blocks.flatMap (Block.entriesOn inTable) := by
    obtain ⟨frame, items, after, ⟨before, split, rfl⟩, fits⟩ := sound.focus index focus
    obtain ⟨container, contained⟩ := fits.container (Focus.destination_of_inside focus)
    rw [split, modify_between, addParagraph_fill]
    simp [entriesOn_next frame contained]
  refine entriesOn_congr rfl ?_
  cases focus : draft.focus with
  | body =>
      simp only [Draft.newParagraph, focus]
      change (draft.reach.1 ++ [Block.paragraph ⟨line.alignment, []⟩]).flatMap _ = _
      simp [flatMap_entriesOn_reach, empty]
  | head =>
      simp only [Draft.newParagraph, focus]
      change (draft.blocks ++ [Block.paragraph ⟨line.alignment, []⟩]).flatMap _ = _
      simp [empty]
  | note index =>
      simp only [Draft.newParagraph, focus]
      exact inside (.inl focus)
  | cell index =>
      simp only [Draft.newParagraph, focus]
      exact inside (.inr focus)

theorem entriesOn_openCell {header : Bool} (opens : draft.openCell header = .ok next)
    (inTable : Bool) : next.entriesOn inTable = draft.entriesOn inTable := by
  obtain ⟨index, -, rfl⟩ := openCell_ok opens
  refine entriesOn_congr rfl ?_
  simp [withBlocks, Draft.blocks, List.flatMap_def,
    map_modify_of_keeps (entriesOn_addCell header _)]

theorem Sound.entriesOn_openNote (sound : draft.Sound) (inTable : Bool) :
    draft.openNote.entriesOn inTable =
      draft.entriesOn inTable ++
        ((if draft.cursor.inTable = inTable then [Entry.item (.marker draft.nextNote)] else []) ++
          if inTable then [] else [.back draft.nextNote]) := by
  have opened : draft.openNote.entriesOn inTable =
      (draft.put (.marker draft.nextNote)).entriesOn inTable ++
        if inTable then [] else [.back draft.nextNote] := by
    cases inTable <;>
      simp [entriesOn_eq, Draft.openNote, withBlocks, Draft.blocks, Block.entriesOn, Block.kind,
        Kind.isGrid, Block.entries, Draft.put, Draft.edit]
  rw [opened, sound.entriesOn_put, List.append_assoc]

theorem entriesOn_openHead (draft : Draft) (inTable : Bool) :
    draft.openHead.entriesOn inTable = draft.entriesOn inTable := by
  simp [Draft.entriesOn, Draft.openHead, Part.told]

/-- A table closes the link, unless content goes to a note or a cell. -/
theorem Sound.openLink?_newTable (sound : draft.Sound)
    (kind : line.kind = .table) (declared : draft.newTable line = .ok next) :
    next.openLink? = if line.leavesOpen draft.focus.destination then draft.openLink? else none := by
  obtain ⟨columns, -, rfl⟩ := newTable_ok declared
  have behind (index : Nat) (last : draft.blocks.length < index) :
      draft.link.filter (·.block == index) = none := by
    rw [Option.filter_eq_none_iff]
    intro link linked
    obtain ⟨place, linkAt⟩ := sound.link link linked
    have bound := linkAt.bound
    simp only [beq_iff_eq]
    omega
  simp only [Directive.leavesOpen, kind, openLink?]
  cases focus : draft.focus with
  | body =>
      refine (behind _ ?_).trans ?_
      · simp [reach, focus, withBlocks, Draft.blocks]
      · simp [Focus.destination]
  | head =>
      refine (behind _ ?_).trans ?_
      · simp [reach, focus, withBlocks, Draft.blocks]
      · simp [Focus.destination]
  | note index => simp [reach, focus, Focus.destination, withBlocks]
  | cell index => simp [reach, focus, Focus.destination, withBlocks]

theorem entriesOn_newTable (declared : draft.newTable line = .ok next) (inTable : Bool) :
    next.entriesOn inTable = draft.entriesOn inTable := by
  obtain ⟨columns, -, rfl⟩ := newTable_ok declared
  have empty : (Block.grid ⟨columns, []⟩).entriesOn inTable = [] := entriesOn_of_empty rfl inTable
  refine entriesOn_congr rfl ?_
  change (draft.blocks ++ [Block.grid ⟨columns, []⟩]).flatMap _ = _
  simp [empty]

/-- A change of the open flow of a note or a cell does not depend on whether a table has
been put behind it. -/
theorem Sound.entriesOn_edit_newTable (sound : draft.Sound)
    (inside : draft.focus.destination = .note ∨ draft.focus.destination = .cell)
    (declared : draft.newTable line = .ok next) (change : List Item → List Item)
    (inTable : Bool) :
    (next.edit change).entriesOn inTable = (draft.edit change).entriesOn inTable := by
  obtain ⟨frame, items, after, ⟨before, split, position⟩, -⟩ := sound.openAt_reach
  obtain ⟨columns, -, rfl⟩ := newTable_ok declared
  have empty : (Block.grid ⟨columns, []⟩).entriesOn inTable = [] := entriesOn_of_empty rfl inTable
  have reached : Draft.reach
      { draft.withBlocks (draft.blocks ++ [.grid ⟨columns, []⟩]) with
        table := some draft.blocks.length } =
      (draft.reach.1 ++ [.grid ⟨columns, []⟩], draft.reach.2) := by
    cases focus : draft.focus with
    | note index | cell index => simp [reach, focus, withBlocks, Draft.blocks]
    | body | head => simp [focus, Focus.destination] at inside
  refine entriesOn_congr rfl ?_
  rw [blocks_edit, blocks_edit, reached, split, ← position, List.append_assoc, List.cons_append,
    modify_between, modify_between]
  simp [empty]

/-- Content goes on where it went behind a new table when the link stays open. -/
theorem Sound.entriesOn_fillLink_newTable (sound : draft.Sound) (kind : line.kind = .table)
    (declared : draft.newTable line = .ok next) :
    (next.fillLink runs).entriesOn inTable =
      (draft.fillLink (if line.leavesOpen draft.focus.destination then runs else [])).entriesOn
        inTable := by
  have stays := sound.openLink?_newTable kind declared
  have closing (closed : next.openLink? = none) :
      (next.fillLink runs).entriesOn inTable = (draft.fillLink []).entriesOn inTable := by
    rw [fillLink_of_closed closed, sound.entriesOn_fillLink_nil, entriesOn_newTable declared]
  cases leaves : line.leavesOpen draft.focus.destination with
  | false => exact closing (by simpa [leaves] using stays)
  | true =>
      simp only [leaves, if_true] at stays
      have inside : draft.focus.destination = .note ∨ draft.focus.destination = .cell := by
        simpa [Directive.leavesOpen, kind, Draft.situation, cursor] using leaves
      cases opened : draft.openLink? with
      | none =>
          rw [if_pos rfl, fillLink_of_closed opened, fillLink_of_closed (stays.trans opened),
            entriesOn_newTable declared]
      | some link =>
          rw [if_pos rfl, fillLink_of_open opened, fillLink_of_open (stays.trans opened),
            sound.entriesOn_edit_newTable inside declared]

theorem openLink?_redirect (redirects : draft.redirect line = .ok next) :
    next.openLink? = none := by
  refine openLink?_of_unlinked ?_
  cases redirects_of_ok redirects with
  | body | note | head => rfl
  | cell target opens =>
      obtain ⟨index, -, rfl⟩ := openCell_ok opens
      rfl

/-- A change of destination puts nothing into the page but what belongs to a note. -/
theorem Sound.entriesOn_redirect (sound : draft.Sound) (kind : line.kind = .destination)
    (redirects : draft.redirect line = .ok next) (inTable : Bool) :
    next.entriesOn inTable =
      draft.entriesOn inTable ++
        draft.situation.entriesOn inTable false runs (.directive line) := by
  cases redirects_of_ok redirects with
  | body target =>
      simp [Situation.entriesOn, Situation.items, Situation.backs, kind, target]
      exact entriesOn_congr rfl rfl
  | note target =>
      rw [sound.unlinked.entriesOn_openNote]
      simp only [Situation.entriesOn, Situation.items, Situation.backs, kind, target, and_self,
        if_true]
      rfl
  | cell target opens =>
      rw [entriesOn_openCell opens]
      simp [Situation.entriesOn, Situation.items, Situation.backs, kind, target]
      exact entriesOn_congr rfl rfl
  | head target =>
      rw [entriesOn_openHead]
      simp [Situation.entriesOn, Situation.items, Situation.backs, kind, target]
      exact entriesOn_congr rfl rfl

/-- An image takes its address from its content or the blob, and uses the tooltip up. -/
theorem newImage_eq (shown : draft.newImage line = .ok next) :
    next = { draft.put (.image (draft.situation.source line) draft.hint) with
      blob := if line.content.isVoid then none else draft.blob, hint := none } := by
  obtain ⟨source, fromBlob, fromContent, rfl⟩ := newImage_ok shown
  have same : source = draft.situation.source line := by
    cases isVoid : line.content.isVoid with
    | false => simp [Situation.source, isVoid, fromContent isVoid]
    | true =>
        obtain ⟨blob, waiting, address⟩ := fromBlob isVoid
        simp [Situation.source, isVoid, Draft.situation, waiting, address]
  rw [same]

theorem registers_redirect (redirects : draft.redirect line = .ok next) :
    next.hint = draft.hint ∧ next.blob = draft.blob := by
  cases redirects_of_ok redirects with
  | body | note | head => exact ⟨rfl, rfl⟩
  | cell target opens =>
      obtain ⟨index, -, rfl⟩ := openCell_ok opens
      exact ⟨rfl, rfl⟩

/-- What waits for later lines after a directive. -/
theorem registers_obey (obeyed : draft.obey line = .ok next) :
    next.hint = (draft.situation.obey line).hint ∧
      next.blob = (draft.situation.obey line).blob := by
  cases obeys_of_ok obeyed with
  | destination kind redirects =>
      simp only [Situation.obey, kind]
      exact registers_redirect redirects
  | image kind shown =>
      rw [newImage_eq shown]
      simp [Situation.obey, kind, situation]
  | table kind declared =>
      obtain ⟨columns, -, rfl⟩ := newTable_ok declared
      constructor <;> simp only [Situation.obey, kind] <;> rfl
  | newSection kind | newParagraph kind | hint kind | link kind | anchor kind | blob kind =>
      constructor <;> simp only [Situation.obey, kind] <;> rfl

/-- Whether there is an open link after a directive. -/
theorem Sound.isOpen_obey (sound : draft.Sound) (obeyed : draft.obey line = .ok next) :
    next.openLink?.isSome = (draft.situation.obey line).isOpen := by
  have shown : (draft.situation.obey line).isOpen =
      (line.kind == .link ||
        draft.openLink?.isSome && line.leavesOpen draft.focus.destination) := rfl
  rw [shown]
  cases obeys_of_ok obeyed with
  | destination kind redirects =>
      simp [openLink?_redirect redirects, Directive.leavesOpen, kind]
  | table kind declared =>
      rw [sound.openLink?_newTable kind declared]
      cases line.leavesOpen draft.focus.destination <;> simp [kind]
  | image kind shown =>
      have put := sound.openLink?_edit (· ++ [.image (draft.situation.source line) draft.hint])
      have same : next.openLink? = draft.openLink? := by
        rw [newImage_eq shown, ← put]
        rfl
      simp [same, Directive.leavesOpen, kind]
  | anchor kind =>
      rw [Draft.put, sound.openLink?_edit]
      simp [Directive.leavesOpen, kind]
  | link kind => simp [sound.openLink?_newLink, kind]
  | newSection kind | newParagraph kind =>
      rw [openLink?_of_unlinked rfl]
      simp [Directive.leavesOpen, kind]
  | hint kind | blob kind =>
      simp [Directive.leavesOpen, kind]
      rfl

theorem Sound.situation_step (sound : draft.Sound) {line : Line}
    (stepped : draft.step line = .ok next) : next.situation = draft.situation.after line := by
  cases line with
  | directive line =>
      change next.situation = (draft.situation.ready (.directive line)).obey line
      rw [← situation_ready]
      have obeyed : (if line.reset then draft.reset else draft).obey line = .ok next := stepped
      have registers := registers_obey obeyed
      have cursor := cursor_obey obeyed
      have isOpen := (sound.ready line.reset).isOpen_obey obeyed
      rw [Draft.situation, cursor, isOpen, registers.1, registers.2]
      rfl
  | run run =>
      cases stepped
      change _ = draft.situation.ready (.run run)
      rw [← situation_ready]
      generalize ready : (if (Line.run run).resets then draft.reset else draft) = before
      have readied : before.Sound := ready ▸ sound.ready _
      have cursor := cursor_addRun before run
      have isOpen : (before.addRun run).openLink? = before.openLink? := by
        obtain ⟨change, edited, -⟩ := addRun_eq_edit before run
        rw [edited, readied.openLink?_edit]
      have registers : (before.addRun run).hint = before.hint ∧
          (before.addRun run).blob = before.blob := by
        obtain ⟨change, edited, -⟩ := addRun_eq_edit before run
        rw [edited]
        exact ⟨rfl, rfl⟩
      rw [Draft.situation, cursor, isOpen, registers.1, registers.2]
      rfl
  | foreign shown => cases stepped

/-- What a directive puts into the page, on each side behind what is there. -/
theorem Sound.entriesOn_obey (sound : draft.Sound) (obeyed : draft.obey line = .ok next) :
    (next.fillLink runs).entriesOn inTable =
      (draft.fillLink (if line.leavesOpen draft.focus.destination then runs else [])).entriesOn
          inTable ++
        draft.situation.entriesOn inTable false runs (.directive line) := by
  cases obeys_of_ok obeyed with
  | destination kind redirects =>
      have leaves : line.leavesOpen draft.focus.destination = false := by
        simp [Directive.leavesOpen, kind]
      rw [leaves]
      exact sound.entriesOn_of_closed (openLink?_redirect redirects)
        (sound.entriesOn_redirect kind redirects inTable)
  | table kind declared =>
      rw [sound.entriesOn_fillLink_newTable kind declared]
      simp [Situation.entriesOn, Situation.items, Situation.backs, kind]
  | image kind shown =>
      rw [newImage_eq shown, entriesOn_fillLink_registers, sound.entriesOn_fillLink_put]
      simp [Directive.leavesOpen, Situation.entriesOn, Situation.items, Situation.backs, kind]
      rfl
  | anchor kind =>
      rw [sound.entriesOn_fillLink_put]
      simp [Directive.leavesOpen, Situation.entriesOn, Situation.items, Situation.backs, kind]
      rfl
  | link kind =>
      rw [sound.entriesOn_newLink]
      simp [Directive.leavesOpen, Situation.entriesOn, Situation.items, Situation.backs, kind,
        sound.entriesOn_fillLink_nil]
      rfl
  | newSection kind =>
      simp only [Directive.leavesOpen, Situation.entriesOn, Situation.items, Situation.backs, kind]
      refine sound.entriesOn_of_closed (openLink?_of_unlinked rfl) ?_
      simp [entriesOn_newSection]
  | newParagraph kind =>
      simp only [Directive.leavesOpen, Situation.entriesOn, Situation.items, Situation.backs, kind]
      refine sound.entriesOn_of_closed (openLink?_of_unlinked rfl) ?_
      simp [sound.entriesOn_newParagraph]
  | hint kind | blob kind =>
      have nothing : draft.situation.entriesOn inTable false runs (.directive line) = [] := by
        simp [Situation.entriesOn, Situation.items, Situation.backs, kind]
      simp only [nothing, Directive.leavesOpen, kind, if_true, List.append_nil]
      exact entriesOn_fillLink_registers draft _ _ runs inTable

/-- The runs that a line brings for the open link. -/
def runsOf : Line → List TextRun
  | .run run => [run]
  | _ => []

/-- A run goes into the open link, in front of the runs of later lines, or else into the
flow. -/
theorem Sound.entriesOn_addRun (sound : draft.Sound) (run : TextRun) :
    ((draft.addRun run).fillLink runs).entriesOn inTable =
      (draft.fillLink (run :: runs)).entriesOn inTable ++
        draft.situation.entriesOn inTable draft.situation.isOpen runs (.run run) := by
  rw [addRun_eq_fillLink]
  cases opened : draft.openLink? with
  | none =>
      have closed : (draft.put (.text run)).openLink? = none :=
        (sound.openLink?_edit _).trans opened
      have isOpen : draft.situation.isOpen = false := by simp [Draft.situation, opened]
      rw [isOpen, Option.isSome_none, if_neg Bool.false_ne_true, fillLink_of_closed closed,
        sound.entriesOn_put, fillLink_of_closed opened]
      simp [Situation.entriesOn, Situation.items, Situation.backs]
      rfl
  | some link =>
      have isOpen : draft.situation.isOpen = true := by simp [Draft.situation, opened]
      have nothing : draft.situation.entriesOn inTable true runs (.run run) = [] := by
        simp [Situation.entriesOn, Situation.items, Situation.backs]
      have both : (fun item : Item => (item.addRuns [run]).addRuns runs) =
          fun item => item.addRuns (run :: runs) := by
        funext item
        cases item <;> simp [Item.addRuns]
      have stays : (draft.fillLink [run]).openLink? = some link := by
        rw [fillLink_of_open opened, sound.openLink?_edit, opened]
      have filled : (draft.fillLink [run]).fillLink runs = draft.fillLink (run :: runs) := by
        rw [fillLink_of_open stays, fillLink_of_open opened, sound.edit_edit,
          fillLink_of_open opened]
        simp only [List.modify_modify_eq, Function.comp_def, both]
      rw [isOpen, nothing, List.append_nil, Option.isSome_some, if_pos rfl, filled]

end

/-! ### Runs of lines -/

/-- The runs that lines add to a link that is open in front of them. -/
def inLink (destination : Destination) (lines : List Line) : List TextRun :=
  (lines.takeWhile (·.leavesOpen destination)).flatMap runsOf

/-- The entries that lines put on one side of the page, given what earlier lines left:
each link with the runs that go into it later. -/
def entriesOf (inTable : Bool) (situation : Situation) : List Line → List Entry
  | [] => []
  | line :: rest =>
      (situation.ready line).entriesOn inTable (situation.ready line).isOpen
          (inLink situation.cursor.destination rest) line ++
        entriesOf inTable (situation.after line) rest

theorem destination_after {destination : Destination} {cursor : Cursor} {line : Line}
    (leaves : line.leavesOpen destination = true) :
    (cursor.after line).destination = cursor.destination := by
  cases line with
  | run run => rfl
  | foreign shown => rfl
  | directive line =>
      have stays : line.leavesOpen destination = true := by
        simpa [Line.leavesOpen] using (Bool.and_eq_true_iff.mp leaves).2
      cases kind : line.kind <;> simp [Directive.leavesOpen, kind] at stays <;>
        simp [Cursor.after, kind]

/-- Only a link has anything inside it, and no link takes the destination elsewhere. -/
theorem entriesOn_inside (inTable : Bool) (situation : Situation) (absorbed : Bool) (line : Line)
    (before : Cursor) (rest : List Line) :
    situation.entriesOn inTable absorbed (inLink (before.after line).destination rest) line =
      situation.entriesOn inTable absorbed (inLink before.destination rest) line := by
  cases line with
  | run run => rfl
  | foreign shown => rfl
  | directive line =>
      cases kind : line.kind <;> simp [Situation.entriesOn, Situation.items, Cursor.after, kind]

/-- What a line puts into the page, on each side behind what is there. -/
theorem Sound.entriesOn_step {draft next : Draft} (sound : draft.Sound) {line : Line}
    (stepped : draft.step line = .ok next) (runs : List TextRun) (inTable : Bool) :
    (next.fillLink runs).entriesOn inTable =
      (draft.fillLink
          (if line.leavesOpen draft.focus.destination then runsOf line ++ runs else [])).entriesOn
            inTable ++
        (draft.situation.ready line).entriesOn inTable (draft.situation.ready line).isOpen runs
          line := by
  rw [← situation_ready]
  have resetting (resets : line.resets = true) (more : List TextRun) :
      (draft.reset.fillLink more).entriesOn inTable =
        (draft.fillLink (if line.leavesOpen draft.focus.destination then runsOf line ++ runs
          else [])).entriesOn inTable := by
    have leaves : line.leavesOpen draft.focus.destination = false := by
      simp [Line.leavesOpen, resets]
    rw [fillLink_of_closed (openLink?_of_unlinked rfl), leaves, if_neg Bool.false_ne_true,
      sound.entriesOn_fillLink_nil]
    exact entriesOn_congr rfl rfl
  cases line with
  | foreign shown => cases stepped
  | directive line =>
      have obeyed : (if line.reset then draft.reset else draft).obey line = .ok next := stepped
      refine ((sound.ready line.reset).entriesOn_obey obeyed).trans ?_
      cases resets : line.reset with
      | true =>
          simp only [Line.resets, resets, if_true, resetting]
          rfl
      | false =>
          simp [Line.leavesOpen, Line.resets, resets, runsOf, Situation.entriesOn, Situation.items]
  | run run =>
      cases stepped
      refine ((sound.ready run.reset).entriesOn_addRun run).trans ?_
      cases resets : run.reset with
      | true => simp only [Line.resets, resets, if_true, resetting]
      | false => simp [Line.leavesOpen, Line.resets, resets, runsOf]

/-- What lines put into the page stands in their order on each side, behind what is
there. -/
theorem Sound.entriesOn_run {draft last : Draft} (sound : draft.Sound) {lines : List Line}
    (ran : draft.run lines = .ok last) (inTable : Bool) :
    last.entriesOn inTable =
      (draft.fillLink (inLink draft.focus.destination lines)).entriesOn inTable ++
        entriesOf inTable draft.situation lines := by
  induction lines generalizing draft with
  | nil =>
      cases ran
      rw [inLink, List.takeWhile_nil, List.flatMap_nil, sound.entriesOn_fillLink_nil, entriesOf,
        List.append_nil]
  | cons line rest inductionHypothesis =>
      obtain ⟨next, stepped, following⟩ := run_cons_ok ran
      have cursor : next.cursor = draft.cursor.after line := cursor_step stepped
      have destination : next.focus.destination = (draft.cursor.after line).destination :=
        congrArg Cursor.destination cursor
      have absorbed : (if line.leavesOpen draft.focus.destination then
          runsOf line ++ inLink next.focus.destination rest else []) =
            inLink draft.focus.destination (line :: rest) := by
        rw [inLink, inLink, List.takeWhile_cons]
        cases leaves : line.leavesOpen draft.focus.destination with
        | false => simp
        | true =>
            rw [destination, destination_after leaves, if_pos rfl, if_pos rfl, List.flatMap_cons]
            rfl
      rw [inductionHypothesis (sound.step stepped) following, sound.entriesOn_step stepped,
        sound.situation_step stepped, entriesOf, List.append_assoc, absorbed, destination,
        entriesOn_inside]
      rfl

/-- The entries of a draft at the end of its lines. -/
theorem entriesOn_of_run {draft : Draft} {lines : List Line} (ran : start.run lines = .ok draft)
    (inTable : Bool) : draft.entriesOn inTable = entriesOf inTable .start lines := by
  have whole := sound_start.entriesOn_run ran inTable
  rwa [fillLink_of_closed (openLink?_of_unlinked rfl)] at whole

end Draft

end Folio
