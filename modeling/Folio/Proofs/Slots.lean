import Folio.Proofs.ContentModel
import Mathlib.Data.List.Forall2

/-!
# Laying out is reversible

A slot is a place for text directly inside a block container: in front of its
first child, or behind one of its children.  Laying out writes to slots and to
nothing else.  In a rendered page every slot is absent, not even empty, so what
was laid out is the page again once the blank slots are cleared, and the printed
text differs from the plain one by blanks in slots alone.
-/

namespace Folio.Markup

open Render

/-- A slot that holds nothing but blanks is left without text. -/
def clearSlot (slot : Option String) : Option String :=
  if Text.isBlankText (slot.getD "") then none else slot

namespace Element

mutual
/-- A tree with all its slots changed: the texts of the block containers in it
and the tails of their children. -/
def mapSlots (change : Option String → Option String) : Node → Node
  | ⟨mark, tag, attributes, text, tail, children⟩ =>
      if blockContainers.contains tag then
        ⟨mark, tag, attributes, change text, tail, mapSlotsAll change change children⟩
      else ⟨mark, tag, attributes, text, tail, mapSlotsAll change id children⟩

/-- Consecutive children with all slots in them changed, and with their own
tails changed as well. -/
def mapSlotsAll (change behind : Option String → Option String) : List Node → List Node
  | [] => []
  | child :: rest =>
      (child.mapSlots change).withTail (behind child.tail) :: mapSlotsAll change behind rest
end

/-- A tree without any text in its slots. -/
def withoutSlots (element : Node) : Node := element.mapSlots fun _ => none

/-- A tree without the slots that hold only blanks. -/
def withoutLayout (element : Node) : Node := element.mapSlots clearSlot

variable {change behind : Option String → Option String}

@[simp]
theorem withTail_self (element : Node) : element.withTail element.tail = element := by
  cases element
  rfl

@[simp]
theorem withTail_withTail (element : Node) (first second : Option String) :
    (element.withTail first).withTail second = element.withTail second := rfl

@[simp]
theorem tail_withTail (element : Node) (tail : Option String) :
    (element.withTail tail).tail = tail := rfl

theorem mapSlotsAll_eq_map (children : List Node) :
    mapSlotsAll change behind children =
      children.map fun child => (child.mapSlots change).withTail (behind child.tail) := by
  induction children with
  | nil => rfl
  | cons child rest inductionHypothesis => rw [mapSlotsAll, inductionHypothesis, List.map_cons]

theorem mapSlots_withTail (element : Node) (tail : Option String) :
    (element.withTail tail).mapSlots change = (element.mapSlots change).withTail tail := by
  cases element
  simp only [withTail, mapSlots]
  split <;> rfl

/-- A change of slots to which it is all the same whether a slot was laid out. -/
def Absorbs (change : Option String → Option String) : Prop :=
  ∀ layout slot, Text.isBlankText layout = true → change (fillSlot layout slot) = change slot

theorem absorbs_const (slot : Option String) : Absorbs fun _ => slot := fun _ _ _ => rfl

theorem absorbs_clearSlot : Absorbs clearSlot := by
  intro layout slot blank
  unfold fillSlot
  split
  · rename_i vacant
    simp [clearSlot, vacant, blank]
  · rfl

theorem isBlankText_append (first second : String) :
    Text.isBlankText (first ++ second) = (Text.isBlankText first && Text.isBlankText second) := by
  simp [Text.isBlankText]

theorem isBlankText_lineIndent {step : String} (blank : Text.isBlankText step = true)
    (level : Int) : Text.isBlankText (lineIndent step level) = true := by
  have repeated (count : Nat) :
      Text.isBlankText (String.join (List.replicate count step)) = true := by
    induction count with
    | zero => rfl
    | succ count inductionHypothesis =>
        rw [List.replicate_succ, String.join_cons, isBlankText_append, blank,
          inductionHypothesis, Bool.and_self]
  rw [lineIndent, isBlankText_append, repeated, Bool.and_true]
  decide

theorem tail_layOut (step : String) (level : Int) (element : Node) :
    (element.layOut step level).tail = element.tail := by
  cases element
  unfold layOut
  split <;> rfl

/-- What laying out makes of the slot behind a child of a container at a level:
behind the last child it is filled twice. -/
def slotBehind (step : String) (level : Int) (isLast : Bool) (tail : Option String) :
    Option String :=
  let slot := fillSlot (lineIndent step (level + 1)) tail
  if isLast then fillSlot (lineIndent step level) slot else slot

theorem layOutAll_cons (step : String) (level : Int) (child : Node) (rest : List Node) :
    layOutAll step level (child :: rest) =
      (child.layOut step (level + 1)).withTail (slotBehind step level rest.isEmpty child.tail) ::
        layOutAll step level rest := by
  rw [layOutAll, tail_layOut]
  rfl

theorem Absorbs.slotBehind (absorbs : Absorbs change) {step : String}
    (blank : Text.isBlankText step = true) (level : Int) (isLast : Bool) (tail : Option String) :
    change (slotBehind step level isLast tail) = change tail := by
  have filled := absorbs _ tail (isBlankText_lineIndent blank (level + 1))
  cases isLast with
  | false => exact filled
  | true => exact (absorbs _ _ (isBlankText_lineIndent blank level)).trans filled

mutual
/-- Laying out writes to slots only, so a change of all slots that absorbs layout
takes it back. -/
theorem mapSlots_layOut (absorbs : Absorbs change) {step : String}
    (blank : Text.isBlankText step = true) :
    (element : Node) → (level : Int) →
      (element.layOut step level).mapSlots change = element.mapSlots change
  | ⟨mark, tag, attributes, text, tail, children⟩, level => by
      unfold layOut
      split
      · rename_i laidOut
        have container : blockContainers.contains tag = true :=
          ((Bool.and_eq_true _ _).mp laidOut).1
        have textStays := absorbs _ text (isBlankText_lineIndent blank (level + 1))
        have childrenStay := mapSlotsAll_layOutAll absorbs blank children level
        simp only [mapSlots, container, if_true, textStays, childrenStay]
      · rfl

/-- The same for consecutive children of a block container. -/
theorem mapSlotsAll_layOutAll (absorbs : Absorbs change) {step : String}
    (blank : Text.isBlankText step = true) :
    (children : List Node) → (level : Int) →
      mapSlotsAll change change (layOutAll step level children) =
        mapSlotsAll change change children
  | [], _ => rfl
  | child :: rest, level => by
      have childStays := mapSlots_layOut absorbs blank child (level + 1)
      have tailStays := absorbs.slotBehind blank level rest.isEmpty child.tail
      have restStays := mapSlotsAll_layOutAll absorbs blank rest level
      rw [layOutAll_cons, mapSlotsAll, mapSlotsAll, mapSlots_withTail, withTail_withTail,
        tail_withTail, childStays, tailStays, restStays]
end

/-! ### Trees with no text in their slots -/

/-- No slot in a tree holds a text, not even an empty one. -/
inductive Tight : Node → Prop
  | intro {element : Node}
      (bare : element.isTagged blockContainers = true →
        element.text = none ∧ ∀ child ∈ element.children, child.tail = none)
      (below : ∀ child ∈ element.children, Tight child) : Tight element

theorem Lacks.tight {element : Node} (lacks : Lacks blockContainers element) : Tight element := by
  induction lacks with
  | @intro element untagged below inductionHypothesis =>
      refine .intro (fun tagged => ?_) inductionHypothesis
      rw [untagged] at tagged
      cases tagged

theorem Tight.mapSlots_eq {element : Node} (tight : Tight element) (absent : change none = none) :
    element.mapSlots change = element := by
  induction tight with
  | @intro element bare below inductionHypothesis =>
      obtain ⟨mark, tag, attributes, text, tail, children⟩ := element
      have childrenStay (behind : Option String → Option String)
          (tailsStay : ∀ child ∈ children, behind child.tail = child.tail) :
          mapSlotsAll change behind children = children := by
        rw [mapSlotsAll_eq_map]
        refine (List.map_congr_left fun child member => ?_).trans (List.map_id children)
        rw [inductionHypothesis child member, tailsStay child member, withTail_self, id]
      unfold mapSlots
      split
      · rename_i container
        obtain ⟨textless, tailless⟩ := bare container
        have textStays : text = none := textless
        rw [childrenStay change fun child member => by rw [tailless child member, absent],
          textStays, absent]
      · rw [childrenStay id fun _ _ => rfl]

end Element

/-! ### Printing with the slots told apart -/

/-- A piece of a printed tree: markup and text that layout leaves alone, or what
stands in a slot. -/
inductive Stretch where
  | markup (text : String)
  | slot (text : String)
  deriving DecidableEq, Repr

namespace Stretch

def text : Stretch → String
  | markup text => text
  | slot text => text

def printAll (stretches : List Stretch) : String := String.join (stretches.map text)

/-- Two stretches of the same text, except that blanks may stand in a slot that is
empty otherwise. -/
inductive Relaid : Stretch → Stretch → Prop
  | markup (text : String) : Relaid (markup text) (markup text)
  | slot {layout : String} (blank : Text.isBlankText layout = true) :
      Relaid (slot layout) (slot "")

theorem printAll_append (first second : List Stretch) :
    printAll (first ++ second) = printAll first ++ printAll second := by
  simp [printAll]

theorem printAll_cons (stretch : Stretch) (rest : List Stretch) :
    printAll (stretch :: rest) = stretch.text ++ printAll rest := by
  simp [printAll]

end Stretch

namespace Element

mutual
/-- The printed form of an element without its tail.  An element that is no block
container is printed as a whole. -/
def stretches : Node → List Stretch
  | ⟨_, tag, attributes, text, _, children⟩ =>
      if blockContainers.contains tag then
        .markup (printStartTag tag attributes) :: .slot (printText tag text) ::
          (stretchesAll children ++ [.markup (printEndTag tag)])
      else
        [.markup (printStartTag tag attributes ++ printText tag text ++ printAll children ++
          printEndTag tag)]

/-- Consecutive children of a block container, each with the slot behind it. -/
def stretchesAll : List Node → List Stretch
  | [] => []
  | child :: rest => child.stretches ++ .slot (printTail child.tail) :: stretchesAll rest
end

mutual
theorem print_eq_stretches :
    (element : Node) →
      element.print = Stretch.printAll element.stretches ++ printTail element.tail
  | ⟨mark, tag, attributes, text, tail, children⟩ => by
      have inner := printAll_eq_stretches children
      unfold stretches
      split
      · simp only [print, Stretch.printAll_cons, Stretch.printAll_append, Stretch.text, inner,
          String.append_assoc]
        simp [Stretch.printAll]
      · simp [print, Stretch.printAll, Stretch.text]

theorem printAll_eq_stretches :
    (children : List Node) → printAll children = Stretch.printAll (stretchesAll children)
  | [] => rfl
  | child :: rest => by
      have first := print_eq_stretches child
      have others := printAll_eq_stretches rest
      rw [printAll, stretchesAll, first, others, Stretch.printAll_append, Stretch.printAll_cons,
        Stretch.text, String.append_assoc]
end

theorem stretches_withTail (element : Node) (tail : Option String) :
    (element.withTail tail).stretches = element.stretches := by
  cases element
  rfl

/-! ### Laid out stretch by stretch -/

theorem isBlankText_escapeText {text : String} (blank : Text.isBlankText text = true) :
    Text.isBlankText (escapeText text) = true := by
  have plain : ∀ c ∈ text.toList, escapeTextChar c = [c] := by
    intro c member
    have isBlank : Text.isBlank c = true := List.all_eq_true.mp blank c member
    unfold escapeTextChar
    split
    · exact absurd isBlank (by decide)
    · exact absurd isBlank (by decide)
    · exact absurd isBlank (by decide)
    · rfl
  have unchanged : text.toList.flatMap escapeTextChar = text.toList := by
    rw [List.flatMap_congr plain, List.flatMap_singleton']
  rwa [escapeText, unchanged, String.ofList_toList]

theorem isBlankText_printText {layout : String} (blank : Text.isBlankText layout = true)
    (tag : String) : Text.isBlankText (printText tag (some layout)) = true := by
  unfold printText
  split
  · exact blank
  · exact isBlankText_escapeText blank

theorem printText_none (tag : String) : printText tag none = "" := by
  unfold printText
  split <;> rfl

theorem isBlankText_slotBehind {step : String} (blank : Text.isBlankText step = true)
    (level : Int) (isLast : Bool) :
    Text.isBlankText (printTail (slotBehind step level isLast none)) = true := by
  have laid (lineLevel : Int) := isBlankText_lineIndent blank lineLevel
  cases isLast with
  | false => exact isBlankText_escapeText (laid (level + 1))
  | true =>
      have filled : fillSlot (lineIndent step (level + 1)) none =
          some (lineIndent step (level + 1)) := rfl
      have refilled : slotBehind step level true none = some (lineIndent step level) := by
        rw [slotBehind, filled, if_pos rfl, fillSlot, Option.getD_some, laid (level + 1)]
        rfl
      rw [refilled]
      exact isBlankText_escapeText (laid level)

theorem forall₂_relaid_stretchesAll {step : String} (blank : Text.isBlankText step = true)
    {children : List Node} (tailless : ∀ child ∈ children, child.tail = none)
    (below : ∀ child ∈ children, ∀ level : Int,
      List.Forall₂ Stretch.Relaid (child.layOut step level).stretches child.stretches)
    (level : Int) :
    List.Forall₂ Stretch.Relaid (stretchesAll (layOutAll step level children))
      (stretchesAll children) := by
  induction children with
  | nil => exact .nil
  | cons child rest inductionHypothesis =>
      obtain ⟨untailed, othersUntailed⟩ := List.forall_mem_cons.mp tailless
      obtain ⟨first, others⟩ := List.forall_mem_cons.mp below
      have behind := isBlankText_slotBehind blank level rest.isEmpty
      rw [layOutAll_cons, stretchesAll, stretchesAll, stretches_withTail, tail_withTail, untailed]
      exact List.rel_append (first (level + 1))
        (.cons (.slot behind) (inductionHypothesis othersUntailed others))

/-- Laying a tree out fills slots that were empty and leaves every other stretch as
it was. -/
theorem Tight.forall₂_relaid {step : String} (blank : Text.isBlankText step = true)
    {element : Node} (tight : Tight element) (level : Int) :
    List.Forall₂ Stretch.Relaid (element.layOut step level).stretches element.stretches := by
  induction tight generalizing level with
  | @intro element bare below inductionHypothesis =>
      obtain ⟨mark, tag, attributes, text, tail, children⟩ := element
      by_cases container : blockContainers.contains tag = true
      · obtain ⟨textless, tailless⟩ := bare container
        obtain rfl : text = none := textless
        have start := Stretch.Relaid.markup (printStartTag tag attributes)
        have ending := Stretch.Relaid.markup (printEndTag tag)
        cases children with
        | nil =>
            simp only [layOut, stretches, container, if_true, List.isEmpty_nil, Bool.not_true,
              Bool.and_false, Bool.false_eq_true, if_false, printText_none]
            exact .cons start (.cons (.slot rfl) (.cons ending .nil))
        | cons child rest =>
            have text := isBlankText_printText (isBlankText_lineIndent blank (level + 1)) tag
            have inner := forall₂_relaid_stretchesAll blank tailless inductionHypothesis level
            simp only [layOut, stretches, container, if_true, List.isEmpty_cons, Bool.not_false,
              Bool.and_true, printText_none]
            exact .cons start (.cons (.slot text) (List.rel_append inner (.cons ending .nil)))
      · simp only [layOut, stretches, container, Bool.false_and, Bool.false_eq_true, if_false]
        exact .cons (.markup _) .nil

end Element

end Folio.Markup

namespace Folio

open Markup Render

/-! ### Pages have no text in their slots -/

theorem IsBare.tight {tag : String} {element : Node} (bare : IsBare tag element)
    (below : ∀ child ∈ element.children, Element.Tight child) : Element.Tight element :=
  .intro (fun _ => ⟨bare.textless, bare.tailless⟩) below

theorem tight_of_tag {element : Node} {tag : String} (tagged : element.tag = tag)
    (uncontained : tag ∉ blockContainers)
    (below : ∀ child ∈ element.children, Element.Tight child) : Element.Tight element := by
  refine .intro (fun container => ?_) below
  have contained : element.tag ∈ blockContainers := by simpa [Element.isTagged] using container
  rw [tagged] at contained
  exact absurd contained uncontained

theorem tight_of_childless {element : Node} {tag : String} (tagged : element.tag = tag)
    (uncontained : tag ∉ blockContainers) (childless : element.children = []) :
    Element.Tight element :=
  tight_of_tag tagged uncontained (by simp [childless])

theorem tight_inline {element : Node} (inline : Draft.IsInline element) : Element.Tight element :=
  (inline.lacks (by decide)).tight

theorem IsFlow.tight {tag : String} {element : Node} (flow : IsFlow tag element)
    (uncontained : tag ∉ blockContainers) : Element.Tight element :=
  tight_of_tag flow.tagged uncontained fun child member => tight_inline (flow.inline child member)

theorem IsCell.tight {element : Node} (cell : IsCell element) : Element.Tight element := by
  have below : ∀ child ∈ element.children, Element.Tight child := by
    obtain ⟨lead, paragraphs, split, inline, flows⟩ := cell.content
    intro child member
    rw [split] at member
    rcases List.mem_append.mp member with inLead | inParagraphs
    · exact tight_inline (inline child inLead)
    · exact (flows child inParagraphs).1.tight (by decide)
  rcases cell.tagged with header | data
  · exact tight_of_tag header (by decide) below
  · exact tight_of_tag data (by decide) below

theorem IsTable.tight {element : Node} (table : IsTable element) : Element.Tight element :=
  table.bare.tight fun row isRow =>
    (table.rows row isRow).bare.tight fun cell isCell =>
      ((table.rows row isRow).cells cell isCell).tight

theorem IsNote.tight {element : Node} (note : IsNote element) : Element.Tight element := by
  obtain ⟨back, paragraphs, split, isBack, flows⟩ := note.content
  refine note.bare.tight fun child member => ?_
  rw [split] at member
  rcases List.mem_cons.mp member with rfl | isParagraph
  · exact tight_of_childless isBack.tagged (by decide) isBack.vacant.2
  · exact (flows child isParagraph).tight (by decide)

theorem IsBlock.tight {element : Node} (block : IsBlock element) : Element.Tight element := by
  rcases block with paragraph | heading | table | note
  · exact paragraph.tight (by decide)
  · exact heading.tight (by decide)
  · exact table.tight
  · exact note.tight

theorem IsBody.tight {element : Node} (body : IsBody element) : Element.Tight element := by
  obtain ⟨titles, parts, split, -, areTitles, areParts⟩ := body.content
  refine body.bare.tight fun child member => ?_
  rw [split] at member
  rcases List.mem_append.mp member with isTitle | isPart
  · have title := areTitles child isTitle
    exact tight_of_childless title.tagged (by decide) title.childless
  · rcases areParts child isPart with part | rule
    · exact part.bare.tight fun block isBlock => (part.blocks block isBlock).tight
    · exact tight_of_childless rule.tagged (by decide) rule.childless

theorem IsHead.tight {element : Node} (head : IsHead element) : Element.Tight element :=
  head.bare.tight fun entry isEntry => ((head.entries entry isEntry).lacks (by decide)).tight

theorem IsPage.tight {element : Node} (page : IsPage element) : Element.Tight element := by
  obtain ⟨head, body, split, isHead, isBody⟩ := page.content
  refine page.bare.tight fun child member => ?_
  rw [split] at member
  rcases List.mem_cons.mp member with rfl | isLast
  · exact isHead.tight
  · rw [List.mem_singleton.mp isLast]
    exact isBody.tight

namespace Page

/-! ### Preparing a tree for printing -/

/-- What is printed of a tree, with its slots told apart. -/
def stretches (options : Options) (root : Node) : List Stretch :=
  let printed := (printedElements options root).map Element.stretches
  if options.bodyOnly then [Stretch.markup "\n"].intercalate printed
  else .markup "<!DOCTYPE html>\n" :: printed.flatten

theorem isBlankText_indentStep : Text.isBlankText indentStep = true := by decide

theorem detached_of_tailless {element : Node} (tailless : element.tail = none) :
    element.detached = element := by
  cases element
  cases tailless
  rfl

theorem tail_prepareNode (options : Options) (element : Node) :
    (prepareNode options element).tail = none := by
  unfold prepareNode
  split
  · rw [Element.tail_layOut]
    rfl
  · rfl

theorem mapSlots_prepareNode {change : Option String → Option String}
    (absorbs : Element.Absorbs change) (options : Options) {element : Node}
    (tailless : element.tail = none) :
    (prepareNode options element).mapSlots change = element.mapSlots change := by
  rw [prepareNode, detached_of_tailless tailless]
  split
  · exact Element.mapSlots_layOut absorbs isBlankText_indentStep element 0
  · rfl

/-- Preparing the children of a body on their own changes slots below them only. -/
theorem mapSlots_preparedBody {change : Option String → Option String}
    (absorbs : Element.Absorbs change) (options : Options) {body : Node}
    (isBody : body.tag = "body") (tight : Element.Tight body) :
    Element.mapSlots change { body with children := body.children.map (prepareNode options) } =
      body.mapSlots change := by
  obtain ⟨mark, tag, attributes, text, tail, children⟩ := body
  obtain rfl : tag = "body" := isBody
  have container : blockContainers.contains "body" = true := by decide
  obtain ⟨bare, -⟩ := tight
  have tailless : ∀ child ∈ children, child.tail = none := (bare container).2
  have childrenStay :
      Element.mapSlotsAll change change (children.map (prepareNode options)) =
        Element.mapSlotsAll change change children := by
    rw [Element.mapSlotsAll_eq_map, Element.mapSlotsAll_eq_map, List.map_map]
    refine List.map_congr_left fun child member => ?_
    rw [Function.comp_apply, mapSlots_prepareNode absorbs options (tailless child member),
      tail_prepareNode, tailless child member]
  simp only [Element.mapSlots, container, if_true, childrenStay]

theorem mapSlotsAll_prepareBody {change behind : Option String → Option String}
    (absorbs : Element.Absorbs change) (options : Options) {children : List Node}
    (tight : ∀ child ∈ children, Element.Tight child) :
    Element.mapSlotsAll change behind (prepareBody options children) =
      Element.mapSlotsAll change behind children := by
  induction children with
  | nil => rfl
  | cons child rest inductionHypothesis =>
      obtain ⟨first, others⟩ := List.forall_mem_cons.mp tight
      unfold prepareBody
      split
      · rename_i isBody
        rw [Element.mapSlotsAll, Element.mapSlotsAll,
          mapSlots_preparedBody absorbs options isBody first]
      · rw [Element.mapSlotsAll, Element.mapSlotsAll, inductionHypothesis others]

/-- Preparing a tree for printing writes to its slots only. -/
theorem mapSlots_prepare {change : Option String → Option String}
    (absorbs : Element.Absorbs change) (options : Options) {root : Node}
    (tight : Element.Tight root) (tailless : root.tail = none) :
    (prepare options root).mapSlots change = root.mapSlots change := by
  unfold prepare
  split
  · obtain ⟨mark, tag, attributes, text, tail, children⟩ := root
    obtain ⟨-, below⟩ := tight
    simp only [Element.mapSlots, mapSlotsAll_prepareBody absorbs options below]
  · exact mapSlots_prepareNode absorbs options tailless

theorem find?_prepareBody (options : Options) (children : List Node) :
    (prepareBody options children).find? (fun child => child.tag == "body") =
      (children.find? fun child => child.tag == "body").map fun body =>
        { body with children := body.children.map (prepareNode options) } := by
  induction children with
  | nil => rfl
  | cons child rest inductionHypothesis =>
      unfold prepareBody
      split
      · rename_i isBody
        simp [isBody]
      · rename_i other
        simp [other, inductionHypothesis]

theorem printedElements_prepare (options : Options) (root : Node) :
    printedElements options (prepare options root) =
      (printedElements options root).map (prepareNode options) := by
  unfold printedElements prepare
  split
  · rw [find?_prepareBody]
    cases root.children.find? fun child => child.tag == "body" with
    | none => rfl
    | some body => rfl
  · rfl

theorem tight_printedElements (options : Options) {root : Node} (tight : Element.Tight root)
    (tailless : root.tail = none) :
    ∀ element ∈ printedElements options root, Element.Tight element ∧ element.tail = none := by
  intro element member
  unfold printedElements at member
  split at member
  · split at member
    · cases member
    · rename_i body found
      obtain ⟨-, below⟩ := tight
      obtain ⟨bare, inner⟩ := below body (List.mem_of_find?_eq_some found)
      have isBody : body.tag = "body" := by simpa using List.find?_some found
      have container : body.isTagged blockContainers = true := by
        rw [Element.isTagged, isBody]
        decide
      exact ⟨inner element member, (bare container).2 element member⟩
  · obtain rfl := List.mem_singleton.mp member
    exact ⟨tight, tailless⟩

/-! ### Printing prepared trees -/

theorem printAll_intercalate (lists : List (List Stretch)) :
    Stretch.printAll ([Stretch.markup "\n"].intercalate lists) =
      "\n".intercalate (lists.map Stretch.printAll) := by
  induction lists with
  | nil => rfl
  | cons first rest inductionHypothesis =>
      cases rest with
      | nil => simp
      | cons second others =>
          rw [List.intercalate_cons_cons, Stretch.printAll_append, Stretch.printAll_append,
            inductionHypothesis]
          simp [Stretch.printAll, Stretch.text]

theorem printAll_flatten (lists : List (List Stretch)) :
    Stretch.printAll lists.flatten = String.join (lists.map Stretch.printAll) := by
  induction lists with
  | nil => rfl
  | cons first rest inductionHypothesis =>
      rw [List.flatten_cons, Stretch.printAll_append, inductionHypothesis, List.map_cons,
        String.join_cons]

theorem printPrepared_eq {options : Options} {root : Node}
    (tailless : ∀ element ∈ printedElements options root, element.tail = none) :
    printPrepared options root = Stretch.printAll (stretches options root) := by
  have printed : (printedElements options root).map Element.print =
      ((printedElements options root).map Element.stretches).map Stretch.printAll := by
    rw [List.map_map]
    refine List.map_congr_left fun element member => ?_
    rw [Element.print_eq_stretches, tailless element member]
    exact String.append_empty
  unfold printPrepared joinPrinted stretches
  rw [printed]
  split
  · rw [printAll_intercalate]
  · rw [Stretch.printAll_cons, Stretch.text, printAll_flatten]

theorem serialize_eq (options : Options) (root : Node) :
    serialize options root = Stretch.printAll (stretches options (prepare options root)) := by
  refine printPrepared_eq fun element member => ?_
  rw [printedElements_prepare] at member
  obtain ⟨printed, -, rfl⟩ := List.mem_map.mp member
  exact tail_prepareNode options printed

/-- Nothing is changed in front of a plain print. -/
theorem stretches_prepare_of_plain {options : Options} (plain : options.pretty = false)
    {root : Node} (tight : Element.Tight root) (tailless : root.tail = none) :
    stretches options (prepare options root) = stretches options root := by
  have unchanged : printedElements options (prepare options root) =
      printedElements options root := by
    rw [printedElements_prepare]
    refine (List.map_congr_left fun element member => ?_).trans (List.map_id _)
    obtain ⟨-, untailed⟩ := tight_printedElements options tight tailless element member
    rw [prepareNode, plain, detached_of_tailless untailed]
    rfl
  rw [stretches, unchanged]
  rfl

theorem forall₂_intercalate {Related : Stretch → Stretch → Prop} {separator : List Stretch}
    (same : List.Forall₂ Related separator separator) {first second : List (List Stretch)}
    (related : List.Forall₂ (List.Forall₂ Related) first second) :
    List.Forall₂ Related (separator.intercalate first) (separator.intercalate second) := by
  induction related with
  | nil => exact .nil
  | cons head others inductionHypothesis =>
      cases others with
      | nil => simpa using head
      | cons next rest =>
          rw [List.intercalate_cons_cons, List.intercalate_cons_cons]
          exact List.rel_append (List.rel_append head same) inductionHypothesis

/-- Preparing a tree for a laid out print fills slots that were empty and leaves
every other stretch of the print as it was. -/
theorem forall₂_relaid_prepare {options : Options} (pretty : options.pretty = true) {root : Node}
    (tight : Element.Tight root) (tailless : root.tail = none) :
    List.Forall₂ Stretch.Relaid (stretches options (prepare options root))
      (stretches options root) := by
  have laid : List.Forall₂ (List.Forall₂ Stretch.Relaid)
      ((printedElements options (prepare options root)).map Element.stretches)
      ((printedElements options root).map Element.stretches) := by
    rw [printedElements_prepare, List.map_map, List.forall₂_map_left_iff,
      List.forall₂_map_right_iff, List.forall₂_same]
    intro element member
    obtain ⟨isTight, untailed⟩ := tight_printedElements options tight tailless element member
    rw [Function.comp_apply, prepareNode, if_pos pretty, detached_of_tailless untailed]
    exact isTight.forall₂_relaid isBlankText_indentStep 0
  unfold stretches
  split
  · exact forall₂_intercalate (.cons (.markup _) .nil) laid
  · exact .cons (.markup _) (List.rel_flatten laid)

end Page

/-- A page that is laid out for printing is the page itself but for its slots, and is
it exactly once the slots that hold only blanks are cleared.  So what is printed laid
out and what is printed plain are the same stretch for stretch, with blanks in slots
that are empty in the plain print. -/
theorem render_laidOut {options : Options} (pretty : options.pretty = true)
    {document : Document} {tree : Node} (rendered : renderTree options document = .ok tree) :
    (Page.prepare options tree).withoutSlots = tree.withoutSlots ∧
      (Page.prepare options tree).withoutLayout = tree ∧
      render options document =
        .ok (Stretch.printAll (Page.stretches options (Page.prepare options tree))) ∧
      render { options with pretty := false } document =
        .ok (Stretch.printAll (Page.stretches options tree)) ∧
      List.Forall₂ Stretch.Relaid (Page.stretches options (Page.prepare options tree))
        (Page.stretches options tree) := by
  obtain ⟨draft, ran, rfl⟩ := Draft.renderTree_ok rendered
  have tight : Element.Tight (Draft.page options document draft) :=
    (Draft.isPage_page options document (Draft.laid_of_run ran)).tight
  have tailless : (Draft.page options document draft).tail = none := rfl
  have printed : render options document =
      .ok (Page.serialize options (Draft.page options document draft)) := by
    rw [render, rendered]
    rfl
  have printedPlain : render { options with pretty := false } document =
      .ok (Page.serialize { options with pretty := false }
        (Draft.page options document draft)) := by
    have same : renderTree { options with pretty := false } document =
        .ok (Draft.page options document draft) := rendered
    rw [render, same]
    rfl
  refine ⟨Page.mapSlots_prepare (Element.absorbs_const none) options tight tailless, ?_, ?_, ?_,
    Page.forall₂_relaid_prepare pretty tight tailless⟩
  · exact (Page.mapSlots_prepare Element.absorbs_clearSlot options tight tailless).trans
      (tight.mapSlots_eq rfl)
  · rw [printed, Page.serialize_eq]
  · rw [printedPlain, Page.serialize_eq, Page.stretches_prepare_of_plain rfl tight tailless]
    rfl

/-- Text that is nothing but blanks, in a paragraph, a heading, a cell and a note, in
front of a formatted run and behind it. -/
def spacedOut : Document where
  lines :=
    [.run ⟨" ", .plain, false⟩,
      .run ⟨"a", { RunStyle.plain with bold := true }, false⟩,
      .run ⟨" \n", .plain, false⟩,
      .directive { Directive.plain .table with content := .number 1 },
      .directive { Directive.plain .destination with target := .known .cell },
      .run ⟨"\t", .plain, false⟩,
      .directive { Directive.plain .destination with target := .known .note },
      .run ⟨" ", .plain, false⟩,
      .directive { Directive.plain .destination with target := .known .head },
      .run ⟨" ", .plain, false⟩,
      .directive { Directive.plain .newSection with breakBefore := true },
      .run ⟨"b", .plain, false⟩]
  metadata := [("title", [" "])]
  showsMetadata := true

def titledBody : Options := { Options.standard with bodyOnly := true, titleHeading := true }

theorem render_laidOut_spacedOut :
    ∃ tree, renderTree titledBody spacedOut = .ok tree ∧
      (Page.prepare titledBody tree).withoutSlots = tree.withoutSlots ∧
      (Page.prepare titledBody tree).withoutLayout = tree ∧
      render titledBody spacedOut =
        .ok (Stretch.printAll (Page.stretches titledBody (Page.prepare titledBody tree))) ∧
      render { titledBody with pretty := false } spacedOut =
        .ok (Stretch.printAll (Page.stretches titledBody tree)) ∧
      List.Forall₂ Stretch.Relaid (Page.stretches titledBody (Page.prepare titledBody tree))
        (Page.stretches titledBody tree) := by
  obtain ⟨tree, rendered⟩ : ∃ tree, renderTree titledBody spacedOut = .ok tree := by
    rw [Draft.renderTree_eq_page]
    exact ⟨_, rfl⟩
  exact ⟨tree, rendered, render_laidOut rfl rendered⟩

end Folio
