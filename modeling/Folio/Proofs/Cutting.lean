import Folio.Proofs.Entries
import Folio.Proofs.Joining

/-!
# Where runs are cut

A plain run of text may be cut in two anywhere but inside a line end: the second run
goes on where the first one stopped.  The lines of the two texts are glued together at
the cut, text put behind text in a slot is one text there, and the second run is sent
to the element that the first one was sent to.  So the page of a document does not
show how its plain text comes in runs.
-/

namespace Folio

/-! ### Lines of a text that is cut -/

namespace Text

/-- The lines of a text that is put together from two: the last line of the first text
goes on with the first line of the second. -/
def glue {Line : Type} [Append Line] : List Line → List Line → List Line
  | [], second => second
  | [last], [] => [last]
  | [last], next :: rest => (last ++ next) :: rest
  | line :: next :: rest, second => line :: glue (next :: rest) second

section

variable {Line : Type} [Append Line]

theorem glue_cons (line : Line) {first : List Line} (nonempty : first ≠ []) (second : List Line) :
    glue (line :: first) second = line :: glue first second := by
  cases first with
  | nil => exact absurd rfl nonempty
  | cons next rest => rfl

theorem glue_concat (front : List Line) (last next : Line) (rest : List Line) :
    glue (front ++ [last]) (next :: rest) = front ++ (last ++ next) :: rest := by
  induction front with
  | nil => rfl
  | cons line front inductionHypothesis =>
      rw [List.cons_append, glue_cons line (by simp), inductionHypothesis, List.cons_append]

theorem map_glue {Other : Type} [Append Other] {write : Line → Other}
    (write_append : ∀ first second, write (first ++ second) = write first ++ write second)
    (first second : List Line) :
    (glue first second).map write = glue (first.map write) (second.map write) := by
  fun_induction glue first second with
  | case1 second => rfl
  | case2 last => rfl
  | case3 last next rest => simp [glue, write_append]
  | case4 line next rest second inductionHypothesis =>
      rw [List.map_cons, inductionHypothesis]
      rfl

end

theorem extendLine_glue (c : Char) {first : List (List Char)} (nonempty : first ≠ [])
    (second : List (List Char)) :
    extendLine c (glue first second) = glue (extendLine c first) second := by
  obtain ⟨line, others, rfl⟩ := List.exists_cons_of_ne_nil nonempty
  cases others with
  | cons next rest => rfl
  | nil => cases second <;> rfl

/-- Whether a cut between two texts goes through a line end. -/
def CutsLineEnd (first second : List Char) : Prop :=
  first.getLast? = some '\r' ∧ second.head? = some '\n'

instance (first second : List Char) : Decidable (CutsLineEnd first second) :=
  inferInstanceAs (Decidable (_ ∧ _))

theorem not_cutsLineEnd_of_cons {c : Char} {rest second : List Char}
    (apart : ¬CutsLineEnd (c :: rest) second) : ¬CutsLineEnd rest second := by
  rintro ⟨atEnd, atStart⟩
  refine apart ⟨?_, atStart⟩
  rw [List.getLast?_cons, atEnd]
  rfl

theorem splitLines_return {rest : List Char} (alone : rest.head? ≠ some '\n') :
    splitLines ('\r' :: rest) = [] :: splitLines rest := by
  cases rest with
  | nil => rfl
  | cons c rest =>
      have other : c ≠ '\n' := by simpa using alone
      rw [splitLines]
      rintro following same
      exact other (List.cons.inj same).1

theorem splitLines_other {c : Char} (noReturn : c ≠ '\r') (noFeed : c ≠ '\n')
    (rest : List Char) : splitLines (c :: rest) = extendLine c (splitLines rest) := by
  rw [splitLines]
  · exact fun _ isReturn _ => noReturn isReturn
  · exact noReturn
  · exact noFeed

/-- Unless the cut goes through a line end, the lines of the parts are those of the
whole. -/
theorem splitLines_append {first second : List Char} (apart : ¬CutsLineEnd first second) :
    splitLines (first ++ second) = glue (splitLines first) (splitLines second) := by
  fun_induction splitLines first with
  | case1 =>
      obtain ⟨line, rest, split⟩ := List.exists_cons_of_ne_nil (splitLines_ne_nil second)
      rw [split]
      exact split
  | case2 rest inductionHypothesis =>
      have following :=
        inductionHypothesis (not_cutsLineEnd_of_cons (not_cutsLineEnd_of_cons apart))
      rw [glue_cons _ (splitLines_ne_nil rest), ← following]
      rfl
  | case3 rest alone inductionHypothesis =>
      have following := inductionHypothesis (not_cutsLineEnd_of_cons apart)
      rw [glue_cons _ (splitLines_ne_nil rest), ← following]
      refine splitLines_return ?_
      cases rest with
      | nil => exact fun feed => apart ⟨rfl, feed⟩
      | cons next others =>
          intro feed
          exact alone others (by rw [Option.some.inj feed])
  | case4 rest inductionHypothesis =>
      have following := inductionHypothesis (not_cutsLineEnd_of_cons apart)
      rw [glue_cons _ (splitLines_ne_nil rest), ← following]
      rfl
  | case5 c rest _ noReturn noFeed inductionHypothesis =>
      have following := inductionHypothesis (not_cutsLineEnd_of_cons apart)
      rw [← extendLine_glue c (splitLines_ne_nil rest), ← following]
      exact splitLines_other noReturn noFeed _

example : splitLines ['\r', '\n'] = [[], []] ∧
    glue (splitLines ['\r']) (splitLines ['\n']) = [[], [], []] := by decide

theorem linesOf_ne_nil (text : String) : linesOf text ≠ [] := by
  rw [linesOf, Ne, List.map_eq_nil_iff]
  exact splitLines_ne_nil text.toList

theorem linesOf_append {first second : String}
    (apart : ¬CutsLineEnd first.toList second.toList) :
    linesOf (first ++ second) = glue (linesOf first) (linesOf second) := by
  rw [linesOf, String.toList_append, splitLines_append apart]
  exact map_glue (fun _ _ => String.ofList_append) _ _

end Text

open Markup Render

/-! ### Text behind text -/

theorem appendText_appendText (holder : Node) (first second : String) :
    (holder.appendText first).appendText second = holder.appendText (first ++ second) := by
  rcases List.eq_nil_or_concat holder.children with empty | ⟨earlier, last, split⟩
  · simp [Element.appendText, empty, extendText, String.append_assoc]
  · rw [List.concat_eq_append] at split
    simp [Element.appendText, split, extendText, String.append_assoc]

/-- Pieces of text put behind others: the two pieces that meet become one. -/
theorem appendPieces_appendPieces (holder : Node) {first second : List String}
    (nonempty : first ≠ []) (nonemptySecond : second ≠ []) :
    appendPieces (appendPieces holder first) second =
      appendPieces holder (Text.glue first second) := by
  obtain ⟨next, others, rfl⟩ := List.exists_cons_of_ne_nil nonemptySecond
  obtain ⟨piece, rest, rfl⟩ := List.exists_cons_of_ne_nil nonempty
  rcases List.eq_nil_or_concat rest with rfl | ⟨front, last, rfl⟩
  · have begun : appendPieces holder [piece] = holder.appendText piece :=
      Element.withChildren_of_eq (List.append_nil _).symm
    rw [begun, Text.glue, appendPieces, appendPieces, appendText_appendText]
  · rw [List.concat_eq_append, ← List.cons_append, Text.glue_concat]
    simp [appendPieces, Element.appendText, lineBreak, extendText]

def TextRun.plain (text : String) : TextRun := ⟨text, .plain, false⟩

theorem appendRun_plain (text : String) (holder : Node) :
    appendRun (.plain text) holder = appendPieces holder (Text.linesOf text) := rfl

/-- A plain run put behind another one is the rest of it. -/
theorem appendRun_appendRun {first second : String}
    (apart : ¬Text.CutsLineEnd first.toList second.toList) (holder : Node) :
    appendRun (.plain second) (appendRun (.plain first) holder) =
      appendRun (.plain (first ++ second)) holder := by
  simp only [appendRun_plain]
  rw [appendPieces_appendPieces holder (Text.linesOf_ne_nil first) (Text.linesOf_ne_nil second),
    ← Text.linesOf_append apart]

theorem modifyAt_modifyAt (first second : Node → Node) (place : Place) (element : Node) :
    (element.modifyAt first place).modifyAt second place =
      element.modifyAt (second ∘ first) place := by
  induction place generalizing element with
  | nil => rfl
  | cons index rest inductionHypothesis =>
      simp only [Element.modifyAt, List.modify_modify_eq]
      congr 2
      funext child
      exact inductionHypothesis child

/-! ### Where the second run goes -/

namespace Draft

/-- After a change of the flow that content goes to, a search ends at the same place and
makes nothing new. -/
theorem OpenAt.resolve_edit {draft : Draft} {frame : Frame} {items : List Item}
    {after : List Block} (opened : OpenAt draft.reach.1 draft.reach.2 frame items after)
    (sound : draft.Sound) {change : List Item → List Item}
    (still : (draft.edit change).Sound) :
    Render.resolve (draft.edit change).current.node draft.focus.destination =
      .ok ((draft.edit change).current.node, draft.reach.2 :: frame.place) := by
  obtain ⟨newFrame, newItems, newAfter, reopened, -, resolved⟩ := still.resolve_reach
  rw [sound.reach_edit change] at reopened resolved
  have changed := opened.modify (modifyItems_fill change frame items)
  have filled : newFrame.fill newItems = frame.fill (change items) :=
    Option.some.inj (reopened.getElem?.symm.trans changed.getElem?)
  have sameFrame := congrArg Block.opened? filled
  simp only [opened?_fill, Option.some.injEq, Prod.mk.injEq] at sameFrame
  obtain ⟨rfl, -⟩ := sameFrame
  exact resolved

end Draft

namespace Render.Pass

/-- The place that a run goes to when content goes to a place: that of the open link, if
it stands there. -/
def runPlace (pass : Pass) (place : Place) : Place :=
  match pass.link with
  | some link => if place.isPrefixOf link then link else place
  | none => place

theorem addRun_of_resolve {pass : Pass} {current : Node} {place : Place}
    (resolved : resolve pass.current pass.destination = .ok (current, place)) (run : TextRun) :
    pass.addRun run =
      .ok { pass with current := current.modifyAt (appendRun run) (pass.runPlace place) } := by
  rw [addRun, resolved]
  rfl

/-- Two runs are one when the second goes on with the first and is sent to the same
place. -/
theorem addRun_addRun {pass : Pass} {current : Node} {place : Place} {first second whole : TextRun}
    (resolved : resolve pass.current pass.destination = .ok (current, place))
    (again :
      resolve (current.modifyAt (appendRun first) (pass.runPlace place)) pass.destination =
        .ok (current.modifyAt (appendRun first) (pass.runPlace place), place))
    (goesOn : ∀ holder, appendRun second (appendRun first holder) = appendRun whole holder) :
    (pass.addRun first >>= (·.addRun second)) = pass.addRun whole := by
  have both : (current.modifyAt (appendRun first) (pass.runPlace place)).modifyAt
      (appendRun second) (pass.runPlace place) =
        current.modifyAt (appendRun whole) (pass.runPlace place) := by
    rw [modifyAt_modifyAt]
    exact congrArg (Element.modifyAt · _ _) (funext goesOn)
  rw [addRun_of_resolve resolved, addRun_of_resolve resolved, ← both]
  exact addRun_of_resolve again second

end Render.Pass

namespace Draft

/-- A run that goes on with another one changes the page as the two do, one after the
other. -/
theorem Depicts.addRun_addRun {opening : Node} {draft : Draft} {pass : Pass}
    (depicts : Depicts opening draft pass) (sound : draft.Sound) {first second whole : TextRun}
    (goesOn : ∀ holder, appendRun second (appendRun first holder) = appendRun whole holder) :
    (pass.addRun first >>= (·.addRun second)) = pass.addRun whole := by
  obtain ⟨frame, items, after, opened, -, resolved⟩ := sound.resolve_reach
  rw [← depicts.current, ← depicts.destination] at resolved
  obtain ⟨change, edits, -⟩ := draft.addRun_eq_edit first
  have again := opened.resolve_edit sound (edits ▸ sound.addRun first)
  have depictsFirst := depicts.addRun sound first
  rw [edits, Pass.addRun_of_resolve resolved] at depictsFirst
  rw [← depictsFirst.current, ← depicts.destination] at again
  exact Pass.addRun_addRun resolved again goesOn

end Draft

/-- A line that is a plain run of text. -/
def Line.plainRun (text : String) : Line := .run (.plain text)

namespace Render.Pass

theorem step_plainRun (pass : Pass) (text : String) :
    pass.step (.plainRun text) = (pass.addRun (.plain text)).mapError .refused := rfl

theorem step_plainRun_bind (pass : Pass) (first second : String) :
    (pass.step (.plainRun first) >>= (·.step (.plainRun second))) =
      (pass.addRun (.plain first) >>= (·.addRun (.plain second))).mapError .refused := by
  rw [step_plainRun]
  cases pass.addRun (.plain first) <;> rfl

end Render.Pass

/-- A pass over a document comes to the same state whether a plain run is cut or not. -/
theorem run_plainRuns (options : Options) (document : Document) {first second : String}
    (apart : ¬Text.CutsLineEnd first.toList second.toList) (before after : List Line) :
    (initialPass options document).run (before ++ .plainRun first :: .plainRun second :: after) =
      (initialPass options document).run (before ++ .plainRun (first ++ second) :: after) := by
  rw [Pass.run_append, Pass.run_append]
  cases ran : (initialPass options document).run before with
  | error failure => rfl
  | ok pass =>
      have agree := Draft.agree_initialPass options document before
      rw [ran] at agree
      obtain ⟨draft, drafted, depicts⟩ := agree.of_ok_state
      have together := depicts.addRun_addRun (Draft.sound_start.run drafted)
        (appendRun_appendRun apart)
      have stepped : (pass.step (.plainRun first) >>= (·.step (.plainRun second))) =
          pass.step (.plainRun (first ++ second)) := by
        rw [Pass.step_plainRun_bind, together, Pass.step_plainRun]
      calc pass.run (.plainRun first :: .plainRun second :: after)
        _ = (pass.step (.plainRun first) >>= (·.step (.plainRun second))) >>= (·.run after) :=
          (bind_assoc _ _ _).symm
        _ = pass.run (.plainRun (first ++ second) :: after) := by
          rw [stepped]
          rfl

/-- A document renders alike whether a plain run of text in it is cut in two or not,
unless the cut goes through a line end: to the same page, or with the same failure. -/
theorem renderTree_cut (options : Options) (document : Document) {first second : String}
    (apart : ¬Text.CutsLineEnd first.toList second.toList) (before after : List Line) :
    renderTree options
        { document with lines := before ++ [.plainRun first, .plainRun second] ++ after } =
      renderTree options
        { document with lines := before ++ [.plainRun (first ++ second)] ++ after } := by
  rw [renderTree_eq_map, renderTree_eq_map, List.append_assoc, List.append_assoc]
  exact congrArg (Except.map _) (run_plainRuns options document apart before after)

/-- An open link in a note that belongs to a cell. -/
def linkInNote : List Line :=
  [.directive { Directive.plain .table with content := .number 1 },
    .directive { Directive.plain .destination with target := .known .cell },
    .directive { Directive.plain .destination with target := .known .note },
    .directive { Directive.plain .link with content := .text "x" }]

theorem renderTree_cut_inLink :
    ¬Text.CutsLineEnd "a\n\r".toList "\r\nb".toList ∧
      renderTree .standard
          ⟨linkInNote ++ [.plainRun "a\n\r", .plainRun "\r\nb"] ++ [], [], true⟩ =
        renderTree .standard
          ⟨linkInNote ++ [.plainRun ("a\n\r" ++ "\r\nb")] ++ [], [], true⟩ := by
  have apart : ¬Text.CutsLineEnd "a\n\r".toList "\r\nb".toList := by decide
  exact ⟨apart, renderTree_cut .standard ⟨[], [], true⟩ apart linkInNote []⟩

end Folio
