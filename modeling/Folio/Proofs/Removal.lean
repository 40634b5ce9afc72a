import Folio.Markup.Prune
import Folio.Proofs.Search

/-!
# Taking elements out of a text

The text content of an element is what is read in it from the beginning to the end.
When a child is taken out, its own text content goes and nothing else: what stood
behind it stays where it stood, and every other element keeps its tag, its attributes and
its position.  Pruning takes out nothing that has a text, so a pruned tree reads as it
did before.
-/

namespace Folio.Markup

/-- An element as an outline lists it: how deep it lies, and what it is apart from texts
and children. -/
structure Stub (Mark : Type) where
  depth : Nat
  mark : Mark
  tag : String
  attributes : List (String × String)

namespace Stub

variable {Mark : Type}

def ofEntry (entry : Place × Element Mark) : Stub Mark :=
  ⟨entry.1.length, entry.2.mark, entry.2.tag, entry.2.attributes⟩

/-- The same element as seen from one level further up. -/
def deeper (stub : Stub Mark) : Stub Mark := { stub with depth := stub.depth + 1 }

end Stub

namespace Element

variable {Mark : Type}

/-! ### Outlines -/

/-- The elements of a tree in document order, without their texts.  Their depths tell
which of them lie in which. -/
def outline (element : Element Mark) : List (Stub Mark) := element.walk.map Stub.ofEntry

theorem map_ofEntry_below (index : Nat) (entries : List (Place × Element Mark)) :
    (entries.map fun (place, element) => (index :: place, element)).map Stub.ofEntry =
      (entries.map Stub.ofEntry).map Stub.deeper := by
  rw [List.map_map, List.map_map]
  rfl

theorem map_ofEntry_walkFrom (index : Nat) (children : List (Element Mark)) :
    (walkFrom index children).map Stub.ofEntry =
      children.flatMap fun child => child.outline.map Stub.deeper := by
  induction children generalizing index with
  | nil => rfl
  | cons child rest inductionHypothesis =>
      rw [walkFrom, List.map_append, map_ofEntry_below, inductionHypothesis, List.flatMap_cons]
      rfl

theorem outline_eq (element : Element Mark) :
    element.outline = Stub.ofEntry ([], element) ::
      element.children.flatMap fun child => child.outline.map Stub.deeper := by
  rw [outline, walk_eq, List.map_cons, map_ofEntry_walkFrom]

/-- An outline shows no texts, neither in an element nor behind it. -/
theorem outline_withTexts (element : Element Mark) (text tail : Option String) :
    ({ element with text := text, tail := tail } : Element Mark).outline = element.outline := by
  rw [outline_eq, outline_eq]
  rfl

/-! ### Text content -/

mutual
/-- What is read in an element, without the text that follows it. -/
def textContent : Element Mark → String
  | ⟨_, _, _, text, _, children⟩ => text.getD "" ++ textContentAll children

/-- What is read in consecutive children, the texts that follow them included. -/
def textContentAll : List (Element Mark) → String
  | [] => ""
  | child :: rest => child.textContent ++ child.tail.getD "" ++ textContentAll rest
end

theorem textContent_eq (element : Element Mark) :
    element.textContent = element.text.getD "" ++ textContentAll element.children := by
  cases element
  rw [textContent]

theorem textContentAll_append (before after : List (Element Mark)) :
    textContentAll (before ++ after) = textContentAll before ++ textContentAll after := by
  induction before with
  | nil => rw [List.nil_append, textContentAll, String.empty_append]
  | cons child rest inductionHypothesis =>
      simp only [List.cons_append, textContentAll, inductionHypothesis, String.append_assoc]

theorem getD_joinLoose (slot loose : Option String) :
    (joinLoose slot loose).getD "" = slot.getD "" ++ loose.getD "" := by
  unfold joinLoose
  split
  · simp
  · simp
  · simp [extendText]

/-! ### Taking out a child -/

/-- An element whose first children are given and whose others are not touched any more,
with loose text in front of these. -/
def hold (holder : Element Mark) (before : List (Element Mark)) (loose : Option String)
    (after : List (Element Mark)) : Element Mark :=
  match before.getLast? with
  | none => { holder with text := joinLoose holder.text loose, children := after }
  | some last =>
      { holder with
        children := before.dropLast ++ { last with tail := joinLoose last.tail loose } :: after }

theorem hold_nil (holder : Element Mark) (loose : Option String) (after : List (Element Mark)) :
    holder.hold [] loose after =
      { holder with text := joinLoose holder.text loose, children := after } := rfl

theorem hold_concat (holder : Element Mark) (before : List (Element Mark))
    (last : Element Mark) (loose : Option String) (after : List (Element Mark)) :
    holder.hold (before ++ [last]) loose after =
      { holder with
        children := before ++ { last with tail := joinLoose last.tail loose } :: after } := by
  simp [hold]

/-- The children that an element had before do not matter. -/
theorem hold_withChildren (holder : Element Mark) (children before : List (Element Mark))
    (loose : Option String) (after : List (Element Mark)) :
    ({ holder with children := children } : Element Mark).hold before loose after =
      holder.hold before loose after := by
  rcases List.eq_nil_or_concat before with rfl | ⟨earlier, last, rfl⟩
  · rw [hold_nil, hold_nil]
  · rw [List.concat_eq_append, hold_concat, hold_concat]

theorem textContent_hold (holder : Element Mark) (before : List (Element Mark))
    (loose : Option String) (after : List (Element Mark)) :
    (holder.hold before loose after).textContent =
      holder.text.getD "" ++ textContentAll before ++
        (loose.getD "" ++ textContentAll after) := by
  rcases List.eq_nil_or_concat before with rfl | ⟨earlier, last, rfl⟩
  · rw [hold_nil, textContent_eq, getD_joinLoose, textContentAll, String.append_empty,
      String.append_assoc]
  · rw [List.concat_eq_append, hold_concat, textContent_eq]
    have behind : textContent { last with tail := joinLoose last.tail loose } =
        last.textContent := by
      rw [textContent_eq, textContent_eq]
    simp only [textContentAll_append, textContentAll, behind, getD_joinLoose,
      String.append_assoc, String.append_empty]

theorem outline_hold (holder : Element Mark) (before : List (Element Mark))
    (loose : Option String) (after : List (Element Mark)) :
    (holder.hold before loose after).outline =
      Stub.ofEntry ([], holder) ::
        (before ++ after).flatMap fun child => child.outline.map Stub.deeper := by
  rcases List.eq_nil_or_concat before with rfl | ⟨earlier, last, rfl⟩
  · rw [hold_nil, outline_eq]
    rfl
  · rw [List.concat_eq_append, hold_concat, outline_eq]
    have behind : outline { last with tail := joinLoose last.tail loose } = last.outline :=
      last.outline_withTexts last.text _
    simp only [List.flatMap_append, List.flatMap_cons, List.flatMap_nil, behind,
      List.append_assoc, List.append_nil]
    rfl

theorem joinLoose_of_empty (slot : Option String) {loose : Option String}
    (empty : loose.getD "" = "") : joinLoose slot loose = slot := by
  cases loose with
  | none => rfl
  | some addition =>
      have isEmpty : addition = "" := empty
      rw [isEmpty]
      rfl

theorem joinLoose_of_nonempty (slot : Option String) {addition : String}
    (nonempty : addition ≠ "") :
    joinLoose slot (some addition) = extendText slot addition := by
  simp [joinLoose]

/-- Without loose text, children are only held. -/
theorem hold_of_empty (holder : Element Mark) (before after : List (Element Mark))
    {loose : Option String} (empty : loose.getD "" = "") :
    holder.hold before loose after = { holder with children := before ++ after } := by
  rcases List.eq_nil_or_concat before with rfl | ⟨earlier, last, rfl⟩
  · rw [hold_nil, joinLoose_of_empty _ empty]
    rfl
  · rw [List.concat_eq_append, hold_concat, joinLoose_of_empty _ empty]
    cases last
    simp

theorem withChildren_of_eq {holder : Element Mark} {children : List (Element Mark)}
    (same : holder.children = children) : { holder with children := children } = holder := by
  subst same
  cases holder
  rfl

theorem withTail_of_eq {element : Element Mark} {tail : Option String}
    (same : element.tail = tail) : ({ element with tail := tail } : Element Mark) = element := by
  subst same
  cases element
  rfl

theorem extendBefore_of_split {holder : Element Mark} {before after : List (Element Mark)}
    (split : holder.children = before ++ after) {addition : String} (nonempty : addition ≠ "") :
    holder.extendBefore before.length addition = holder.hold before (some addition) after := by
  rcases List.eq_nil_or_concat before with rfl | ⟨earlier, last, rfl⟩
  · rw [hold_nil, joinLoose_of_nonempty _ nonempty, List.length_nil, extendBefore, split]
    rfl
  · rw [List.concat_eq_append] at split ⊢
    rw [hold_concat, joinLoose_of_nonempty _ nonempty, List.length_append, List.length_singleton,
      extendBefore, split, List.append_assoc, List.singleton_append, modify_between]

/-- Only the children that are not touched any more change when one of them goes. -/
theorem eraseIdx_hold (holder : Element Mark) (before : List (Element Mark))
    (loose : Option String) (child : Element Mark) (after : List (Element Mark)) :
    { holder.hold before loose (child :: after) with
        children := (holder.hold before loose (child :: after)).children.eraseIdx before.length } =
      holder.hold before loose after := by
  rcases List.eq_nil_or_concat before with rfl | ⟨earlier, last, rfl⟩
  · rfl
  · rw [List.concat_eq_append, hold_concat, hold_concat]
    rw [List.eraseIdx_append_of_length_le (by simp)]
    simp

/-- The text behind a child that is taken out joins what stands in front of it. -/
theorem removeChild_of_split {parent child : Element Mark} {before after : List (Element Mark)}
    (split : parent.children = before ++ child :: after) :
    parent.removeChild before.length = parent.hold before child.tail after := by
  have tail : parent.children[before.length]?.bind Element.tail = child.tail := by
    simp [split]
  rw [← eraseIdx_hold parent before child.tail child after, removeChild, tail]
  cases behind : child.tail with
  | none => rw [hold_of_empty _ _ _ rfl, withChildren_of_eq split]
  | some addition =>
      by_cases empty : addition = ""
      · subst empty
        rw [hold_of_empty _ _ _ rfl, withChildren_of_eq split]
        rfl
      · rw [← extendBefore_of_split split empty]
        simp

/-- A child that is taken out leaves the text in front of it and the text behind it. -/
theorem textContent_removeChild {parent child : Element Mark}
    {before after : List (Element Mark)} (split : parent.children = before ++ child :: after) :
    (parent.removeChild before.length).textContent =
      parent.text.getD "" ++ textContentAll before ++
        (child.tail.getD "" ++ textContentAll after) := by
  rw [removeChild_of_split split, textContent_hold]

/-- The places below consecutive children begin with the indices of these. -/
theorem head?_of_mem_walkFrom {first : Nat} {children : List (Element Mark)}
    {entry : Place × Element Mark} (member : entry ∈ walkFrom first children) :
    ∃ index, entry.1.head? = some index ∧ first ≤ index ∧ index < first + children.length := by
  induction children generalizing first with
  | nil => cases member
  | cons child rest inductionHypothesis =>
      rw [walkFrom, List.mem_append, List.mem_map] at member
      rw [List.length_cons]
      rcases member with ⟨below, -, rfl⟩ | later
      · exact ⟨first, rfl, Nat.le_refl first, by omega⟩
      · obtain ⟨index, begins, lower, upper⟩ := inductionHypothesis later
        exact ⟨index, begins, by omega, by omega⟩

theorem filter_head_walkFrom {index first : Nat} {children : List (Element Mark)}
    (apart : index < first ∨ first + children.length ≤ index) :
    ((walkFrom first children).filter fun (place, _) => place.head? != some index) =
      walkFrom first children := by
  apply List.filter_eq_self.mpr
  intro entry member
  obtain ⟨other, begins, lower, upper⟩ := head?_of_mem_walkFrom member
  have different : other ≠ index := by omega
  simpa [begins] using different

theorem filter_head_below (index : Nat) (entries : List (Place × Element Mark)) :
    ((entries.map fun (place, element) => (index :: place, element)).filter
      fun (place, _) => place.head? != some index) = [] := by
  apply List.filter_eq_nil_iff.mpr
  intro entry member
  obtain ⟨below, -, rfl⟩ := List.mem_map.mp member
  simp

/-- The elements that lie in the child at an index are those whose places begin with
it. -/
theorem filter_head_walk {parent child : Element Mark} {before after : List (Element Mark)}
    (split : parent.children = before ++ child :: after) :
    (parent.walk.filter fun (place, _) => place.head? != some before.length) =
      ([], parent) :: (walkFrom 0 before ++ walkFrom (before.length + 1) after) := by
  rw [walk_eq, split, walkFrom_append, walkFrom, List.filter_cons_of_pos (by simp),
    List.filter_append, List.filter_append, Nat.zero_add, filter_head_below,
    filter_head_walkFrom (.inr (by omega)), filter_head_walkFrom (.inl (by omega)),
    List.nil_append]

/-- What is left when a child is taken out are the elements that do not lie in it. -/
theorem outline_removeChild {parent child : Element Mark} {before after : List (Element Mark)}
    (split : parent.children = before ++ child :: after) :
    (parent.removeChild before.length).outline =
      (parent.walk.filter fun (place, _) => place.head? != some before.length).map
        Stub.ofEntry := by
  rw [removeChild_of_split split, outline_hold, filter_head_walk split, List.map_cons,
    List.map_append, map_ofEntry_walkFrom, map_ofEntry_walkFrom, List.flatMap_append]

/-! ### Pruning -/

/-- Whether pruning an element leaves nothing of it, so that it goes itself. -/
def isHollow (element : Element Mark) : Bool :=
  isPrunable element.prune.1.tag element.prune.1.text element.prune.1.children

theorem prune_eq (element : Element Mark) :
    element.prune =
      (element.hold [] (pruneAll element.children).loose (pruneAll element.children).kept,
        (pruneAll element.children).removed) := by
  cases element
  rw [prune]
  rfl

@[simp]
theorem tail_prune (element : Element Mark) : element.prune.1.tail = element.tail := by
  rw [prune_eq]
  rfl

theorem mark_prune (element : Element Mark) : element.prune.1.mark = element.mark := by
  rw [prune_eq]
  rfl

theorem isTagged_prune (tags : List String) (element : Element Mark) :
    element.prune.1.isTagged tags = element.isTagged tags := by
  rw [prune_eq]
  rfl

theorem pruneAll_cons_hollow {child : Element Mark} (hollow : child.isHollow = true)
    (rest : List (Element Mark)) :
    pruneAll (child :: rest) =
      ⟨joinLoose child.tail (pruneAll rest).loose, (pruneAll rest).kept,
        child.prune.1.detached :: child.prune.2 ++ (pruneAll rest).removed⟩ := by
  rw [isHollow] at hollow
  simp only [pruneAll, hollow, if_true, tail_prune]

theorem pruneAll_cons_solid {child : Element Mark} (solid : child.isHollow = false)
    (rest : List (Element Mark)) :
    pruneAll (child :: rest) =
      ⟨none,
        { child.prune.1 with tail := joinLoose child.tail (pruneAll rest).loose } ::
          (pruneAll rest).kept,
        child.prune.2 ++ (pruneAll rest).removed⟩ := by
  rw [isHollow] at solid
  simp only [pruneAll, solid, Bool.false_eq_true, if_false, tail_prune]

theorem isHollow_eq (element : Element Mark) :
    element.isHollow = (element.isTagged prunableTags && !element.prune.1.hasContent) := by
  rw [← isTagged_prune, isHollow, isPrunable, isTagged, hasContent, Bool.not_or, Bool.not_not,
    Option.not_isSome, Bool.and_assoc]

/-- What an element is that goes: a section or a paragraph in which nothing is left. -/
theorem isHollow_iff (element : Element Mark) :
    element.isHollow = true ↔
      element.isTagged prunableTags = true ∧ element.prune.1.text = none ∧
        element.prune.1.children = [] := by
  rw [isHollow_eq, hasContent, Bool.not_or, Bool.not_not, Option.not_isSome, Bool.and_eq_true,
    Bool.and_eq_true, List.isEmpty_iff, Option.isNone_iff_eq_none, and_comm (a := _ = [])]

mutual

/-- A pruned element reads as it did before. -/
theorem textContent_prune (element : Element Mark) :
    element.prune.1.textContent = element.textContent := by
  obtain ⟨mark, tag, attributes, text, tail, children⟩ := element
  rw [prune_eq, textContent_hold, textContentAll, String.append_empty,
    textContentAll_pruneAll children, textContent]

theorem textContentAll_pruneAll (children : List (Element Mark)) :
    (pruneAll children).loose.getD "" ++ textContentAll (pruneAll children).kept =
      textContentAll children := by
  cases children with
  | nil => rfl
  | cons child rest =>
      have inside := textContent_prune child
      have following := textContentAll_pruneAll rest
      cases goes : child.isHollow with
      | true =>
          obtain ⟨-, textless, childless⟩ := child.isHollow_iff.mp goes
          have nothing : child.textContent = "" := by
            rw [← inside, textContent_eq, textless, childless]
            rfl
          rw [pruneAll_cons_hollow goes, textContentAll, nothing, ← following, getD_joinLoose,
            String.empty_append, String.append_assoc]
      | false =>
          have kept (tail : Option String) :
              textContent { child.prune.1 with tail := tail } = child.textContent := by
            rw [← inside, textContent_eq, textContent_eq]
          rw [pruneAll_cons_solid goes, textContentAll, textContentAll, ← following, kept]
          simp only [getD_joinLoose, Option.getD_none, String.empty_append, String.append_assoc]

end

/-- Taking elements out never loses text and never moves it.  A pruned tree reads as it did;
and when one child goes, exactly what is read in it is cut out between what stands in front
of it and what follows it, while the elements that do not lie in it stay as they were. -/
theorem textContent_stays (root : Element Mark) :
    root.prune.1.textContent = root.textContent ∧
      ∀ (parent child : Element Mark) (before after : List (Element Mark)),
        parent.children = before ++ child :: after →
          parent.textContent =
              parent.text.getD "" ++ textContentAll before ++ child.textContent ++
                (child.tail.getD "" ++ textContentAll after) ∧
            (parent.removeChild before.length).textContent =
              parent.text.getD "" ++ textContentAll before ++
                (child.tail.getD "" ++ textContentAll after) ∧
            (parent.removeChild before.length).outline =
              (parent.walk.filter fun (place, _) => place.head? != some before.length).map
                Stub.ofEntry := by
  refine ⟨root.textContent_prune, fun parent child before after split => ⟨?_, ?_, ?_⟩⟩
  · rw [textContent_eq parent, split, textContentAll_append, textContentAll]
    simp only [String.append_assoc]
  · exact textContent_removeChild split
  · exact outline_removeChild split

/-- The text behind a second child goes to the end of the text behind the first. -/
theorem textContent_stays_second_child :
    let first : Element Nat := ⟨1, "p", [], some "b", some "c", []⟩
    let second : Element Nat := ⟨2, "p", [], some "d", some "e", [⟨3, "b", [], none, some "f", []⟩]⟩
    let last : Element Nat := ⟨4, "hr", [], none, none, []⟩
    let parent : Element Nat := ⟨0, "body", [], some "a", none, [first, second, last]⟩
    parent.children = [first] ++ second :: [last] ∧
      parent.textContent = "abcdfe" ∧
      (parent.removeChild 1).textContent = "abce" ∧
      (parent.removeChild 1).outline =
        [⟨0, 0, "body", []⟩, ⟨1, 1, "p", []⟩, ⟨1, 4, "hr", []⟩] := by
  intro first second last parent
  have split : parent.children = [first] ++ second :: [last] := rfl
  obtain ⟨whole, rest, others⟩ := (textContent_stays parent).2 parent second [first] [last] split
  refine ⟨split, ?_, ?_, ?_⟩
  · rw [whole]
    decide
  · exact rest.trans (by decide)
  · exact others.trans (by rfl)

end Element

end Folio.Markup
