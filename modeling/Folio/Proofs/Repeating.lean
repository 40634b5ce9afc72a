import Folio.Proofs.Slots

/-!
# Printing a tree again

Printing a tree changes it: the elements that are printed lose their tails and are laid
out.  What is laid out already stays as it is, whatever texts the indentation is made
of, since a slot that was filled either holds more than blanks or is filled the same
way again.  So a tree that is printed twice gives the same text twice and does not
change the second time.  This holds also of printing that comes to a stop, where a
name cannot be printed.

Laying out looks at the slot behind the last child of a container a second time, and
relies on a text in it.  There always is one, because the slot was filled before.
-/

namespace Folio.Markup

open Render

/-! ### Filling slots again -/

theorem exists_fillSlot (layout : String) (slot : Option String) :
    ∃ text, fillSlot layout slot = some text := by
  cases slot with
  | none => exact ⟨layout, rfl⟩
  | some text =>
      unfold fillSlot
      split
      · exact ⟨layout, rfl⟩
      · exact ⟨text, rfl⟩

theorem fillSlot_of_text {layout : String} {slot : Option String}
    (text : Text.isBlankText (slot.getD "") = false) : fillSlot layout slot = slot := by
  rw [fillSlot, text]
  rfl

theorem fillSlot_of_blank {layout : String} {slot : Option String}
    (blank : Text.isBlankText (slot.getD "") = true) : fillSlot layout slot = some layout :=
  if_pos blank

@[simp]
theorem fillSlot_self (layout : String) : fillSlot layout (some layout) = some layout := by
  unfold fillSlot
  split <;> rfl

@[simp]
theorem fillSlot_fillSlot (layout : String) (slot : Option String) :
    fillSlot layout (fillSlot layout slot) = fillSlot layout slot := by
  cases blank : Text.isBlankText (slot.getD "") with
  | true => rw [fillSlot_of_blank blank, fillSlot_self]
  | false => rw [fillSlot_of_text blank, fillSlot_of_text blank]

/-- Filling a slot with one layout and then with another comes to the same a second time,
also where a layout holds more than blanks. -/
theorem fillSlot_between (inner outer : String) (slot : Option String) :
    fillSlot outer (fillSlot inner (fillSlot outer (fillSlot inner slot))) =
      fillSlot outer (fillSlot inner slot) := by
  cases blank : Text.isBlankText (slot.getD "") with
  | false => simp only [fillSlot_of_text blank]
  | true =>
      rw [fillSlot_of_blank blank]
      cases innerBlank : Text.isBlankText inner with
      | false =>
          have kept (layout : String) : fillSlot layout (some inner) = some inner :=
            fillSlot_of_text innerBlank
          simp only [kept]
      | true =>
          have refilled : fillSlot outer (some inner) = some outer :=
            fillSlot_of_blank innerBlank
          cases outerBlank : Text.isBlankText outer with
          | false =>
              have kept (layout : String) : fillSlot layout (some outer) = some outer :=
                fillSlot_of_text outerBlank
              simp only [refilled, kept]
          | true =>
              have again : fillSlot inner (some outer) = some inner :=
                fillSlot_of_blank outerBlank
              simp only [refilled, again]

namespace Element

theorem slotBehind_slotBehind (step : String) (level : Int) (isLast : Bool)
    (tail : Option String) :
    slotBehind step level isLast (slotBehind step level isLast tail) =
      slotBehind step level isLast tail := by
  cases isLast with
  | false => exact fillSlot_fillSlot (lineIndent step (level + 1)) tail
  | true =>
      simp only [slotBehind, if_true]
      exact fillSlot_between (lineIndent step (level + 1)) (lineIndent step level) tail

/-! ### Laying out again -/

theorem layOut_withTail (step : String) (level : Int) (element : Node) (tail : Option String) :
    (element.withTail tail).layOut step level = (element.layOut step level).withTail tail := by
  cases element
  simp only [withTail, layOut]
  split <;> rfl

theorem isEmpty_layOutAll (step : String) (level : Int) (children : List Node) :
    (layOutAll step level children).isEmpty = children.isEmpty := by
  cases children <;> rfl

mutual
/-- A tree that is laid out stays as it is when it is laid out again. -/
theorem layOut_layOut (step : String) :
    (element : Node) → (level : Int) →
      (element.layOut step level).layOut step level = element.layOut step level
  | ⟨mark, tag, attributes, text, tail, children⟩, level => by
      by_cases laidOut : (blockContainers.contains tag && !children.isEmpty) = true
      · have stillLaidOut :
            (blockContainers.contains tag && !(layOutAll step level children).isEmpty) = true := by
          rw [isEmpty_layOutAll]
          exact laidOut
        have childrenStay := layOutAll_layOutAll step children level
        simp only [layOut, if_pos laidOut, if_pos stillLaidOut, fillSlot_fillSlot, childrenStay]
      · simp only [layOut, if_neg laidOut]

/-- The same for consecutive children of a container. -/
theorem layOutAll_layOutAll (step : String) :
    (children : List Node) → (level : Int) →
      layOutAll step level (layOutAll step level children) = layOutAll step level children
  | [], _ => rfl
  | child :: rest, level => by
      have childStays := layOut_layOut step child (level + 1)
      have restStays := layOutAll_layOutAll step rest level
      rw [layOutAll_cons, layOutAll_cons, layOut_withTail, childStays, isEmpty_layOutAll,
        tail_withTail, withTail_withTail, slotBehind_slotBehind, restStays]
end

/-! ### Laying out in place -/

/-- Why laying out in place would stop. -/
inductive LayoutFault where
  /-- There is no last child to look behind. -/
  | noChild
  /-- There is no text behind the last child. -/
  | noTail
  deriving DecidableEq, Repr

/-- Look at the text behind the last child again, and lead back to the container's own
level when it is blank. -/
def closeLast (layout : String) (children : List Node) : Except LayoutFault (List Node) :=
  match children.getLast? with
  | none => .error .noChild
  | some last =>
      match last.tail with
      | none => .error .noTail
      | some text =>
          .ok (children.dropLast ++
            [last.withTail (some (if Text.isBlankText text then layout else text))])

mutual
/-- Lay out step by step, each slot when its turn comes. -/
def layOutInPlace (step : String) (level : Int) : Node → Except LayoutFault Node
  | ⟨mark, tag, attributes, text, tail, children⟩ =>
      if blockContainers.contains tag && !children.isEmpty then do
        let laid ← layOutEach step level children
        let closed ← closeLast (lineIndent step level) laid
        return ⟨mark, tag, attributes, fillSlot (lineIndent step (level + 1)) text, tail, closed⟩
      else .ok ⟨mark, tag, attributes, text, tail, children⟩

/-- Lay out consecutive children, and after each of them the slot behind it. -/
def layOutEach (step : String) (level : Int) : List Node → Except LayoutFault (List Node)
  | [] => .ok []
  | child :: rest => do
      let inner ← child.layOutInPlace step (level + 1)
      let following ← layOutEach step level rest
      return inner.withTail (fillSlot (lineIndent step (level + 1)) inner.tail) :: following
end

/-- A child laid out, and the slot behind it, wherever it stands. -/
def laidChild (step : String) (level : Int) (child : Node) : Node :=
  (child.layOut step (level + 1)).withTail (fillSlot (lineIndent step (level + 1)) child.tail)

theorem layOutAll_concat (step : String) (level : Int) (front : List Node) (last : Node) :
    layOutAll step level (front ++ [last]) =
      front.map (laidChild step level) ++
        [(last.layOut step (level + 1)).withTail (slotBehind step level true last.tail)] := by
  induction front with
  | nil => exact layOutAll_cons step level last []
  | cons child rest inductionHypothesis =>
      have notLast : (rest ++ [last]).isEmpty = false := by simp
      rw [List.cons_append, layOutAll_cons, inductionHypothesis, notLast]
      rfl

/-- The text that is looked for behind the last child is there. -/
theorem closeLast_laid (step : String) (level : Int) {children : List Node}
    (nonempty : children ≠ []) :
    closeLast (lineIndent step level) (children.map (laidChild step level)) =
      .ok (layOutAll step level children) := by
  obtain ⟨front, last, rfl⟩ := (List.eq_nil_or_concat children).resolve_left nonempty
  obtain ⟨text, filled⟩ := exists_fillSlot (lineIndent step (level + 1)) last.tail
  rw [List.concat_eq_append, layOutAll_concat, List.map_append, List.map_singleton]
  have behind : slotBehind step level true last.tail =
      some (if Text.isBlankText text then lineIndent step level else text) := by
    simp only [slotBehind, if_true]
    rw [filled, fillSlot, Option.getD_some]
    split <;> rfl
  simp [closeLast, laidChild, filled, behind]

mutual
theorem layOutInPlace_eq (step : String) :
    (element : Node) → (level : Int) →
      element.layOutInPlace step level = .ok (element.layOut step level)
  | ⟨mark, tag, attributes, text, tail, children⟩, level => by
      have each := layOutEach_eq step children level
      unfold layOutInPlace layOut
      split
      · rename_i laidOut
        have nonempty : children ≠ [] := by
          rintro rfl
          simp at laidOut
        rw [each]
        simp only [bind, Except.bind, closeLast_laid step level nonempty]
        rfl
      · rfl

theorem layOutEach_eq (step : String) :
    (children : List Node) → (level : Int) →
      layOutEach step level children = .ok (children.map (laidChild step level))
  | [], _ => rfl
  | child :: rest, level => by
      have inner := layOutInPlace_eq step child (level + 1)
      have following := layOutEach_eq step rest level
      rw [layOutEach, inner, following]
      simp only [bind, Except.bind, tail_layOut]
      rfl
end

end Element

end Folio.Markup

namespace Folio

open Render Markup

namespace Page

/-! ### Printing in place -/

/-- Consecutive elements are made ready and printed one by one.  A name that cannot be
printed ends this, and the elements behind it stay as they were. -/
def emitAll (options : Options) : List Node → List Node × Except NameFault (List String)
  | [] => ([], .ok [])
  | child :: rest =>
      let ready := prepareNode options child
      match ready.printQualified with
      | .error fault => (ready :: rest, .error fault)
      | .ok text =>
          let following := emitAll options rest
          (ready :: following.1, following.2.map (text :: ·))

/-- The same for the children of the first body among consecutive elements. -/
def emitBody (options : Options) : List Node → List Node × Except NameFault (List String)
  | [] => ([], .ok [])
  | child :: rest =>
      if child.tag = "body" then
        let inside := emitAll options child.children
        ({ child with children := inside.1 } :: rest, inside.2)
      else
        let following := emitBody options rest
        (child :: following.1, following.2)

/-- A tree is printed and changed while it is printed. -/
def emit (options : Options) (root : Node) : Node × Except NameFault String :=
  if options.bodyOnly then
    let inside := emitBody options root.children
    ({ root with children := inside.1 }, inside.2.map ("\n".intercalate ·))
  else
    let ready := prepareNode options root
    (ready, ready.printQualified.map ("<!DOCTYPE html>\n" ++ ·))

theorem prepareNode_prepareNode (options : Options) (element : Node) :
    prepareNode options (prepareNode options element) = prepareNode options element := by
  have stays := detached_of_tailless (tail_prepareNode options element)
  rw [prepareNode, stays]
  split
  · rename_i pretty
    rw [prepareNode, if_pos pretty, Element.layOut_layOut]
  · rfl

theorem prepareBody_prepareBody (options : Options) (children : List Node) :
    prepareBody options (prepareBody options children) = prepareBody options children := by
  induction children with
  | nil => rfl
  | cons child rest inductionHypothesis =>
      by_cases isBody : child.tag = "body"
      · have ready : (child.children.map (prepareNode options)).map (prepareNode options) =
            child.children.map (prepareNode options) := by
          rw [List.map_map]
          exact List.map_congr_left fun inner _ => prepareNode_prepareNode options inner
        simp only [prepareBody, if_pos isBody, ready]
      · simp only [prepareBody, if_neg isBody, inductionHypothesis]

theorem prepare_prepare (options : Options) (root : Node) :
    prepare options (prepare options root) = prepare options root := by
  by_cases bodyOnly : options.bodyOnly = true
  · simp only [prepare, if_pos bodyOnly, prepareBody_prepareBody]
  · simp only [prepare, if_neg bodyOnly, prepareNode_prepareNode]

theorem emitAll_of_error {options : Options} {child : Node} {fault : NameFault}
    (refused : (prepareNode options child).printQualified = .error fault) (rest : List Node) :
    emitAll options (child :: rest) = (prepareNode options child :: rest, .error fault) := by
  rw [emitAll, refused]

theorem emitAll_of_ok {options : Options} {child : Node} {text : String}
    (printed : (prepareNode options child).printQualified = .ok text) (rest : List Node) :
    emitAll options (child :: rest) =
      (prepareNode options child :: (emitAll options rest).1,
        (emitAll options rest).2.map (text :: ·)) := by
  rw [emitAll, printed]

/-- What was printed is printed again in the same way, up to the same name that cannot
be printed. -/
theorem emitAll_emitAll (options : Options) (children : List Node) :
    emitAll options (emitAll options children).1 = emitAll options children := by
  induction children with
  | nil => rfl
  | cons child rest inductionHypothesis =>
      have again := prepareNode_prepareNode options child
      cases printed : (prepareNode options child).printQualified with
      | error fault =>
          have printedAgain :
              (prepareNode options (prepareNode options child)).printQualified =
                .error fault := by
            rw [again, printed]
          rw [emitAll_of_error printed, emitAll_of_error printedAgain, again]
      | ok text =>
          have printedAgain :
              (prepareNode options (prepareNode options child)).printQualified = .ok text := by
            rw [again, printed]
          rw [emitAll_of_ok printed, emitAll_of_ok printedAgain, again, inductionHypothesis]

theorem emitBody_emitBody (options : Options) (children : List Node) :
    emitBody options (emitBody options children).1 = emitBody options children := by
  induction children with
  | nil => rfl
  | cons child rest inductionHypothesis =>
      by_cases isBody : child.tag = "body"
      · simp only [emitBody, if_pos isBody, emitAll_emitAll]
      · simp only [emitBody, if_neg isBody, inductionHypothesis]

theorem snd_emitAll (options : Options) (children : List Node) :
    (emitAll options children).2 =
      (children.map (prepareNode options)).mapM Element.printQualified := by
  induction children with
  | nil => rfl
  | cons child rest inductionHypothesis =>
      rw [List.map_cons, List.mapM_cons, ← inductionHypothesis]
      cases printed : (prepareNode options child).printQualified with
      | error fault =>
          rw [emitAll_of_error printed]
          rfl
      | ok text =>
          rw [emitAll_of_ok printed]
          cases (emitAll options rest).2 <;> rfl

theorem fst_emitAll_of_ok {options : Options} {children : List Node} {texts : List String}
    (printed : (emitAll options children).2 = .ok texts) :
    (emitAll options children).1 = children.map (prepareNode options) := by
  induction children generalizing texts with
  | nil => rfl
  | cons child rest inductionHypothesis =>
      cases first : (prepareNode options child).printQualified with
      | error fault =>
          rw [emitAll_of_error first] at printed
          cases printed
      | ok text =>
          rw [emitAll_of_ok first] at printed ⊢
          cases others : (emitAll options rest).2 with
          | error fault =>
              rw [others] at printed
              cases printed
          | ok othersTexts => rw [inductionHypothesis others, List.map_cons]

theorem snd_emitBody (options : Options) (children : List Node) :
    (emitBody options children).2 =
      (((children.find? fun child => child.tag == "body").elim [] Element.children).map
        (prepareNode options)).mapM Element.printQualified := by
  induction children with
  | nil => rfl
  | cons child rest inductionHypothesis =>
      by_cases isBody : child.tag = "body"
      · simp [emitBody, isBody, snd_emitAll]
      · simp [emitBody, isBody, inductionHypothesis]

theorem fst_emitBody_of_ok {options : Options} {children : List Node} {texts : List String}
    (printed : (emitBody options children).2 = .ok texts) :
    (emitBody options children).1 = prepareBody options children := by
  induction children with
  | nil => rfl
  | cons child rest inductionHypothesis =>
      by_cases isBody : child.tag = "body"
      · simp only [emitBody, if_pos isBody] at printed
        simp only [emitBody, prepareBody, if_pos isBody, fst_emitAll_of_ok printed]
      · simp only [emitBody, if_neg isBody] at printed
        simp only [emitBody, prepareBody, if_neg isBody, inductionHypothesis printed]

/-- Printing in place gives the text of the tree that was made ready for it. -/
theorem snd_emit (options : Options) (root : Node) :
    (emit options root).2 = printPreparedQualified options (prepare options root) := by
  by_cases bodyOnly : options.bodyOnly = true
  · have printed : printedElements options root =
        (root.children.find? fun child => child.tag == "body").elim [] Element.children := by
      rw [printedElements, if_pos bodyOnly]
      cases root.children.find? fun child => child.tag == "body" <;> rfl
    rw [emit, if_pos bodyOnly, printPreparedQualified, printedElements_prepare, printed]
    simp only [snd_emitBody, joinPrinted, if_pos bodyOnly]
    cases List.mapM (m := Except NameFault) Element.printQualified _ <;> rfl
  · rw [emit, if_neg bodyOnly, printPreparedQualified, printedElements_prepare,
      printedElements, if_neg bodyOnly, List.map_singleton]
    simp only [List.mapM_cons, List.mapM_nil, joinPrinted, if_neg bodyOnly]
    cases (prepareNode options root).printQualified with
    | error fault => rfl
    | ok text => simp [bind, Except.bind, pure, Except.pure, Except.map]

/-- Printing in place that comes to its end leaves the tree that was made ready for it. -/
theorem fst_emit_of_ok {options : Options} {root : Node} {text : String}
    (printed : (emit options root).2 = .ok text) :
    (emit options root).1 = prepare options root := by
  by_cases bodyOnly : options.bodyOnly = true
  · rw [emit, if_pos bodyOnly] at printed ⊢
    cases inside : (emitBody options root.children).2 with
    | error fault =>
        simp only [inside] at printed
        cases printed
    | ok texts => simp only [prepare, if_pos bodyOnly, fst_emitBody_of_ok inside]
  · rw [emit, prepare, if_neg bodyOnly, if_neg bodyOnly]

theorem emit_emit (options : Options) (root : Node) :
    emit options (emit options root).1 = emit options root := by
  by_cases bodyOnly : options.bodyOnly = true
  · simp only [emit, if_pos bodyOnly, emitBody_emitBody]
  · simp only [emit, if_neg bodyOnly, prepareNode_prepareNode]

theorem serialize_prepare (options : Options) (root : Node) :
    serialize options (prepare options root) = serialize options root := by
  rw [serialize, prepare_prepare]
  rfl

end Page

/-- Printing a tree once more gives the same text or comes to the same stop, and changes
nothing that the first time did not.  So it is with laying out alone, which never fails. -/
theorem serialization_repeats (options : Options) (root : Node) (step : String) (level : Int)
    (element : Node) :
    Page.emit options (Page.emit options root).1 = Page.emit options root ∧
      (Page.emit options root).2 = Page.printPreparedQualified options (Page.prepare options root) ∧
      (∀ text, (Page.emit options root).2 = .ok text →
        (Page.emit options root).1 = Page.prepare options root) ∧
      Page.prepare options (Page.prepare options root) = Page.prepare options root ∧
      Page.serialize options (Page.prepare options root) = Page.serialize options root ∧
      element.layOutInPlace step level = .ok (element.layOut step level) ∧
      (element.layOut step level).layOutInPlace step level = .ok (element.layOut step level) := by
  have laid := Element.layOutInPlace_eq step element level
  have laidAgain := Element.layOutInPlace_eq step (element.layOut step level) level
  rw [Element.layOut_layOut] at laidAgain
  exact ⟨Page.emit_emit options root, Page.snd_emit options root,
    fun _ printed => Page.fst_emit_of_ok printed, Page.prepare_prepare options root,
    Page.serialize_prepare options root, laid, laidAgain⟩

end Folio
