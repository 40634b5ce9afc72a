import Folio.Proofs.Removal
import Folio.Proofs.Repeating

/-!
# The slots that are laid out

Laying a tree out goes down through block containers and stops at every other element,
so what it reaches is a part of the tree that hangs together with its top.  There it
fills the text of each container that has children and the slot behind each of these,
and only where nothing but blanks stood.  How far a slot is indented tells how deep its
container lies; the slot behind the last child leads back by one step.  Tags, attributes
and children stay as they are, and so does every other text.
-/

namespace Folio.Markup

/-- A new line and a number of steps. -/
def indentation (step : String) (count : Nat) : String :=
  "\n" ++ String.join (List.replicate count step)

/-- Whether a slot is absent or holds nothing but blanks. -/
def isBlankSlot (slot : Option String) : Bool := Text.isBlankText (slot.getD "")

theorem lineIndent_natCast (step : String) (count : Nat) :
    lineIndent step count = indentation step count := by
  rw [lineIndent, Int.toNat_natCast, indentation]

theorem fillSlot_eq (layout : String) (slot : Option String) :
    fillSlot layout slot = if isBlankSlot slot then some layout else slot := rfl

namespace Element

variable {Mark : Type} {step : String}

/-- The element at a place has children, and it is a block container like every element
on the way down to it. -/
def Reached (root : Element Mark) (place : Place) : Prop :=
  (∃ found, root.at? place = some found ∧ found.children ≠ []) ∧
    ∀ above, above <+: place →
      ∃ element, root.at? above = some element ∧ element.isTagged blockContainers = true

/-- Whether laying out gets to the element at a place and fills slots there. -/
def isReached : Element Mark → Place → Bool
  | element, [] => element.isTagged blockContainers && !element.children.isEmpty
  | element, index :: rest =>
      element.isTagged blockContainers &&
        (element.children[index]?).any fun child => child.isReached rest

/-- What lies below an element is reached only if the element is laid out itself. -/
theorem isReached_nil_of_below {element : Element Mark} {index : Nat} {rest : Place}
    (reached : element.isReached (index :: rest) = true) : element.isReached [] = true := by
  obtain ⟨container, below⟩ := Bool.and_eq_true_iff.mp reached
  obtain ⟨child, present, -⟩ := Option.any_eq_true _ _ |>.mp below
  have nonempty : element.children ≠ [] := List.ne_nil_of_mem (List.mem_of_getElem? present)
  simp [isReached, container, nonempty]

theorem at?_cons {root child : Element Mark} {index : Nat}
    (present : root.children[index]? = some child) (rest : Place) :
    root.at? (index :: rest) = child.at? rest := by
  rw [at?, present]

theorem reached_cons {root child : Element Mark} {index : Nat}
    (present : root.children[index]? = some child) (rest : Place) :
    root.Reached (index :: rest) ↔ root.isTagged blockContainers = true ∧ child.Reached rest := by
  simp only [Reached, at?_cons present]
  constructor
  · rintro ⟨filled, containers⟩
    obtain ⟨top, here, tagged⟩ := containers [] List.nil_prefix
    cases here
    refine ⟨tagged, filled, fun above isAbove => ?_⟩
    have inChild := containers (index :: above) (List.cons_prefix_cons.mpr ⟨rfl, isAbove⟩)
    rwa [at?_cons present] at inChild
  · rintro ⟨tagged, filled, containers⟩
    refine ⟨filled, fun above isAbove => ?_⟩
    cases above with
    | nil => exact ⟨root, rfl, tagged⟩
    | cons first others =>
        obtain ⟨rfl, inChild⟩ := List.cons_prefix_cons.mp isAbove
        rw [at?_cons present]
        exact containers others inChild

theorem isReached_iff {root : Element Mark} {place : Place} :
    root.isReached place = true ↔ root.Reached place := by
  induction place generalizing root with
  | nil => simp [isReached, Reached, at?, and_comm]
  | cons index rest inductionHypothesis =>
      cases present : root.children[index]? with
      | none => simp [isReached, Reached, at?, present]
      | some child =>
          rw [reached_cons present, ← inductionHypothesis, isReached, present, Bool.and_eq_true]
          rfl

instance (root : Element Mark) (place : Place) : Decidable (root.Reached place) :=
  decidable_of_iff (root.isReached place = true) isReached_iff

theorem layOut_of_reached {element : Element Mark} (reached : element.isReached [] = true)
    (level : Int) :
    element.layOut step level =
      { element with
        text := fillSlot (lineIndent step (level + 1)) element.text
        children := layOutAll step level element.children } := by
  cases element
  rw [layOut]
  exact if_pos reached

theorem layOut_of_not_reached {element : Element Mark}
    (unreached : element.isReached [] = false) (level : Int) :
    element.layOut step level = element := by
  cases element
  rw [layOut]
  exact if_neg (Bool.eq_false_iff.mp unreached)

/-- Each of consecutive children is laid out one level further down, and the slot behind
it is filled. -/
theorem getElem?_layOutAll (step : String) (level : Int) (children : List (Element Mark))
    (index : Nat) :
    (layOutAll step level children)[index]? = children[index]?.map fun child =>
      { child.layOut step (level + 1) with
        tail := slotBehind step level (decide (index + 1 = children.length))
          (child.layOut step (level + 1)).tail } := by
  induction children generalizing index with
  | nil => rfl
  | cons child rest inductionHypothesis =>
      cases index with
      | zero =>
          have isLast : decide (0 + 1 = (child :: rest).length) = rest.isEmpty := by
            cases rest <;> simp
          rw [isLast]
          rfl
      | succ index =>
          have isLast : decide (index + 1 + 1 = (child :: rest).length) =
              decide (index + 1 = rest.length) := by
            simp
          rw [isLast, List.getElem?_cons_succ, ← inductionHypothesis index]
          rfl

theorem tail_layOut_eq (step : String) (level : Int) (element : Element Mark) :
    (element.layOut step level).tail = element.tail := by
  cases reached : element.isReached [] with
  | true => rw [layOut_of_reached reached]
  | false => rw [layOut_of_not_reached reached]

/-- What lies at a place after a tree was laid out, or after its text and children were
taken from a tree that was. -/
theorem at?_layOut {root found : Element Mark} {place : Place}
    (lies : root.at? place = some found) (step : String) (level : Int) (top : Element Mark)
    (sameText : top.text = (root.layOut step level).text)
    (sameChildren : top.children = (root.layOut step level).children) :
    ∃ laid, top.at? place = some laid ∧
      laid.text = (if root.isReached place then
        fillSlot (lineIndent step (level + place.length + 1)) found.text else found.text) ∧
      laid.children = (if root.isReached place then
        layOutAll step (level + place.length) found.children else found.children) := by
  induction place generalizing root level top with
  | nil =>
      obtain rfl : root = found := by simpa [at?] using lies
      refine ⟨top, rfl, ?_⟩
      rw [sameText, sameChildren]
      cases reached : root.isReached [] with
      | true => simp [layOut_of_reached reached]
      | false => simp [layOut_of_not_reached reached]
  | cons index rest inductionHypothesis =>
      cases outer : root.isReached [] with
      | false =>
          have unreached : root.isReached (index :: rest) = false := by
            by_contra reached
            rw [isReached_nil_of_below (by simpa using reached)] at outer
            cases outer
          rw [layOut_of_not_reached outer] at sameChildren
          have same : top.at? (index :: rest) = some found := by
            rw [at?, sameChildren, ← lies, at?]
          exact ⟨found, same, by simp [unreached], by simp [unreached]⟩
      | true =>
          have container : root.isTagged blockContainers = true :=
            (Bool.and_eq_true_iff.mp outer).1
          have laidChildren : top.children = layOutAll step level root.children := by
            rw [sameChildren, layOut_of_reached outer]
          cases present : root.children[index]? with
          | none => simp [at?, present] at lies
          | some child =>
              have liesBelow : child.at? rest = some found := by simpa [at?, present] using lies
              have inTop := getElem?_layOutAll step level root.children index
              rw [present, Option.map_some, ← laidChildren] at inTop
              obtain ⟨laid, there, text, children⟩ :=
                inductionHypothesis liesBelow (level + 1)
                  { child.layOut step (level + 1) with
                    tail := slotBehind step level (decide (index + 1 = root.children.length))
                      (child.layOut step (level + 1)).tail } rfl rfl
              have sameReach : root.isReached (index :: rest) = child.isReached rest := by
                rw [isReached, container, present]
                rfl
              have deeper : level + ((index :: rest).length : Int) = level + 1 + rest.length := by
                rw [List.length_cons]
                omega
              refine ⟨laid, by rw [at?, inTop]; exact there, ?_, ?_⟩
              · rw [text, sameReach, deeper]
              · rw [children, sameReach, deeper]

mutual

/-- Laying out keeps all elements of a tree, their tags and their attributes. -/
theorem outline_layOut (step : String) (level : Int) (element : Element Mark) :
    (element.layOut step level).outline = element.outline := by
  obtain ⟨mark, tag, attributes, text, tail, children⟩ := element
  rw [layOut]
  split
  · rw [outline_eq, outline_eq]
    exact congrArg _ (outlines_layOutAll step level children)
  · rfl

theorem outlines_layOutAll (step : String) (level : Int) (children : List (Element Mark)) :
    ((layOutAll step level children).flatMap fun child => child.outline.map Stub.deeper) =
      children.flatMap fun child => child.outline.map Stub.deeper := by
  cases children with
  | nil => rfl
  | cons child rest =>
      have first := outline_layOut step (level + 1) child
      have following := outlines_layOutAll step level rest
      rw [layOutAll, List.flatMap_cons, List.flatMap_cons, following, ← first]
      congr 2
      exact outline_withTexts _ _ _

end

/-- Behind the last child of a container stands one step less than behind the others. -/
theorem slotBehind_eq (blank : Text.isBlankText step = true) (level : Nat) (isLast : Bool)
    (slot : Option String) :
    slotBehind step level isLast slot =
      if isBlankSlot slot then some (indentation step (level + if isLast then 0 else 1))
      else slot := by
  have between : lineIndent step ((level : Int) + 1) = indentation step (level + 1) :=
    lineIndent_natCast step (level + 1)
  cases vacant : isBlankSlot slot with
  | false =>
      cases isLast <;> simp [slotBehind, fillSlot_eq, vacant]
  | true =>
      have refilled : isBlankSlot (some (lineIndent step ((level : Int) + 1))) = true :=
        isBlankText_lineIndent blank _
      cases isLast with
      | false => simp [slotBehind, fillSlot_eq, vacant, between]
      | true =>
          simp [slotBehind, fillSlot_eq, vacant, refilled, lineIndent_natCast]

/-- Laying out changes nothing but slots that are absent or blank: the texts of the
containers that are reached, and the tails of their children.  Every such slot is filled
with as many steps as its container lies deep, one more except behind a last child. -/
theorem layOut_fills_slots (blank : Text.isBlankText step = true) (level : Nat)
    (root : Element Mark) :
    (root.layOut step level).outline = root.outline ∧
      (root.layOut step level).tail = root.tail ∧
      ∀ place found, root.at? place = some found →
        ∃ laid, (root.layOut step level).at? place = some laid ∧
          laid.text = (if root.Reached place ∧ isBlankSlot found.text = true then
            some (indentation step (level + place.length + 1)) else found.text) ∧
          ∀ index child, found.children[index]? = some child →
            ∃ laidChild, laid.children[index]? = some laidChild ∧
              laidChild.tail =
                if root.Reached place ∧ isBlankSlot child.tail = true then
                  some (indentation step (level + place.length +
                    if index + 1 = found.children.length then 0 else 1))
                else child.tail := by
  refine ⟨outline_layOut step level root, tail_layOut_eq step level root, ?_⟩
  intro place found lies
  obtain ⟨laid, there, text, children⟩ := at?_layOut lies step level _ rfl rfl
  cases reached : root.isReached place with
  | false =>
      have outside : ¬ root.Reached place := by simp [← isReached_iff, reached]
      simp only [reached, Bool.false_eq_true, if_false] at text children
      refine ⟨laid, there, by simp [text, outside], fun index child present => ?_⟩
      exact ⟨child, by rwa [children], by simp [outside]⟩
  | true =>
      have inside : root.Reached place := isReached_iff.mp reached
      have depth : (level : Int) + place.length = ((level + place.length : Nat) : Int) := by omega
      have below : (level : Int) + place.length + 1 = ((level + place.length + 1 : Nat) : Int) := by
        omega
      simp only [reached, if_true, below, lineIndent_natCast, fillSlot_eq] at text
      simp only [reached, if_true, depth] at children
      refine ⟨laid, there, by simp [text, inside], fun index child present => ?_⟩
      have inPlace := getElem?_layOutAll step (level + place.length : Nat) found.children index
      rw [present, Option.map_some, ← children] at inPlace
      refine ⟨_, inPlace, ?_⟩
      simp only [tail_layOut_eq, slotBehind_eq blank, inside, true_and, decide_eq_true_eq]

/-- A text that is not blank stays also between children that are laid out. -/
theorem layOut_fills_slots_nested :
    let first : Element Nat := ⟨2, "p", [], some " ", some "x", []⟩
    let last : Element Nat := ⟨3, "p", [], none, some "", []⟩
    let inner : Element Nat := ⟨1, "section", [], some "\n", none, [first, last]⟩
    let outer : Element Nat := ⟨0, "body", [], none, none, [inner]⟩
    Text.isBlankText "\t" = true ∧ outer.at? [0] = some inner ∧
      ∃ laid, (outer.layOut "\t" 1).at? [0] = some laid ∧ laid.text = some "\n\t\t\t" ∧
        (∃ child, laid.children[0]? = some child ∧ child.tail = some "x") ∧
        ∃ child, laid.children[1]? = some child ∧ child.tail = some "\n\t\t" := by
  intro first last inner outer
  have blank : Text.isBlankText "\t" = true := by decide
  obtain ⟨-, -, slots⟩ := layOut_fills_slots blank 1 outer
  obtain ⟨laid, there, text, tails⟩ := slots [0] inner rfl
  obtain ⟨laidFirst, inFront, kept⟩ := tails 0 first rfl
  obtain ⟨laidLast, behind, filled⟩ := tails 1 last rfl
  exact ⟨blank, rfl, laid, there, text.trans (by decide),
    ⟨laidFirst, inFront, kept.trans (by decide)⟩,
    ⟨laidLast, behind, filled.trans (by decide)⟩⟩

end Element

end Folio.Markup
