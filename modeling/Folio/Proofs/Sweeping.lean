import Folio.Proofs.Removal
import Mathlib.Order.Bounds.Defs
import Mathlib.Data.Set.Card

/-!
# What a sweep takes out

Sections and paragraphs are hollow when they have no text and hold nothing but hollow ones
without text behind them.  The places of the hollow elements below the root are the least
set that is closed under this rule, and pruning takes out the elements at these places and
no others.  The same tree results from a sweep: a single pass that visits the elements of
a tree in reverse document order and takes out each one that is empty at its turn.
-/

namespace Folio.Markup.Element

variable {Mark : Type}

/-! ### Hollow elements -/

/-- A section or a paragraph that comes to nothing when those in it do. -/
inductive Hollow : Element Mark → Prop
  | intro {element : Element Mark} (tagged : element.isTagged prunableTags = true)
      (textless : element.text = none) (below : ∀ child ∈ element.children, Hollow child)
      (untailed : ∀ child ∈ element.children, child.tail.getD "" = "") : Hollow element

/-- The places of the hollow elements below the top of a tree. -/
def hollows (root : Element Mark) : Set Place :=
  {place | place ≠ [] ∧ ∃ element, root.at? place = some element ∧ element.Hollow}

/-- A section or a paragraph below the top of a tree would be empty without the elements at
some other places. -/
def EmptyWithout (root : Element Mark) (gone : Set Place) (place : Place) : Prop :=
  place ≠ [] ∧ ∃ element, root.at? place = some element ∧
    element.isTagged prunableTags = true ∧ element.text = none ∧
    ∀ index child, element.children[index]? = some child →
      place ++ [index] ∈ gone ∧ child.tail.getD "" = ""

theorem joinLoose_eq_none_iff {slot loose : Option String} :
    joinLoose slot loose = none ↔ slot = none ∧ loose.getD "" = "" := by
  by_cases empty : loose.getD "" = ""
  · simp [joinLoose_of_empty slot empty, empty]
  · cases loose with
    | none => exact absurd rfl empty
    | some addition =>
        have nonempty : addition ≠ "" := empty
        simp [joinLoose_of_nonempty slot nonempty, extendText, nonempty]

mutual

theorem isHollow_iff_hollow (element : Element Mark) :
    element.isHollow = true ↔ element.Hollow := by
  obtain ⟨mark, tag, attributes, text, tail, children⟩ := element
  rw [isHollow_iff, prune_eq, hold_nil]
  simp only [joinLoose_eq_none_iff]
  have inside := pruneAll_empties_iff children
  constructor
  · rintro ⟨tagged, ⟨textless, quiet⟩, nothing⟩
    have all := inside.mp ⟨nothing, quiet⟩
    exact .intro tagged textless (fun child member => (all child member).1)
      fun child member => (all child member).2
  · rintro ⟨tagged, textless, below, untailed⟩
    obtain ⟨nothing, quiet⟩ := inside.mpr fun child member =>
      ⟨below child member, untailed child member⟩
    exact ⟨tagged, ⟨textless, quiet⟩, nothing⟩

/-- Consecutive children come to nothing, loose text included, when each is hollow and has
no text behind it. -/
theorem pruneAll_empties_iff (children : List (Element Mark)) :
    (pruneAll children).kept = [] ∧ (pruneAll children).loose.getD "" = "" ↔
      ∀ child ∈ children, child.Hollow ∧ child.tail.getD "" = "" := by
  cases children with
  | nil => simp [pruneAll]
  | cons child rest =>
      have first := isHollow_iff_hollow child
      have following := pruneAll_empties_iff rest
      rw [List.forall_mem_cons, ← following, ← first]
      cases goes : child.isHollow with
      | true =>
          rw [pruneAll_cons_hollow goes]
          simp only [getD_joinLoose, String.append_eq_empty_iff]
          tauto
      | false =>
          rw [pruneAll_cons_solid goes]
          simp

end

/-! ### Places -/

theorem at?_concat (root : Element Mark) (place : Place) (index : Nat) :
    root.at? (place ++ [index]) = (root.at? place).bind (·.children[index]?) := by
  induction place generalizing root with
  | nil =>
      simp only [List.nil_append, at?, Option.bind_some]
      cases root.children[index]? <;> rfl
  | cons first rest inductionHypothesis =>
      simp only [List.cons_append, at?]
      cases root.children[first]? with
      | none => rfl
      | some child => exact inductionHypothesis child

/-- An entry below consecutive children lies in one of them. -/
theorem mem_walkFrom_iff {first index : Nat} {rest : Place} {element : Element Mark}
    {children : List (Element Mark)} :
    (index :: rest, element) ∈ walkFrom first children ↔
      ∃ offset child, index = first + offset ∧ children[offset]? = some child ∧
        (rest, element) ∈ child.walk := by
  induction children generalizing first with
  | nil => simp [walkFrom]
  | cons child others inductionHypothesis =>
      rw [walkFrom, List.mem_append, inductionHypothesis, List.mem_map]
      constructor
      · rintro (⟨⟨below, found⟩, member, same⟩ | ⟨offset, other, rfl, found, member⟩)
        · cases same
          exact ⟨0, child, rfl, rfl, member⟩
        · exact ⟨offset + 1, other, by omega, found, member⟩
      · rintro ⟨offset, other, rfl, found, member⟩
        cases offset with
        | zero =>
            cases found
            exact .inl ⟨_, member, rfl⟩
        | succ offset => exact .inr ⟨offset, other, by omega, found, member⟩

theorem nil_notMem_walkFrom {first : Nat} {children : List (Element Mark)}
    {element : Element Mark} : ([], element) ∉ walkFrom first children := by
  intro member
  obtain ⟨_, begins, -⟩ := head?_of_mem_walkFrom member
  cases begins

/-- A walk lists the elements of a tree at their places. -/
theorem mem_walk_iff {root element : Element Mark} {place : Place} :
    (place, element) ∈ root.walk ↔ root.at? place = some element := by
  induction place generalizing root with
  | nil => simp [walk_eq, nil_notMem_walkFrom, at?, eq_comm]
  | cons index rest inductionHypothesis =>
      have below : (index :: rest, element) ∈ root.walk ↔
          (index :: rest, element) ∈ walkFrom 0 root.children := by
        simp [walk_eq]
      rw [below, mem_walkFrom_iff, at?]
      cases found : root.children[index]? with
      | none =>
          simp only [reduceCtorEq, iff_false]
          rintro ⟨offset, child, same, present, -⟩
          rw [Nat.zero_add] at same
          rw [← same, found] at present
          cases present
      | some child =>
          rw [← inductionHypothesis]
          constructor
          · rintro ⟨offset, other, same, present, member⟩
            rw [Nat.zero_add] at same
            rw [← same, found] at present
            cases present
            exact member
          · exact fun member => ⟨index, child, (Nat.zero_add index).symm, found, member⟩

mutual

/-- No place occurs twice in a walk. -/
theorem nodup_walk (root : Element Mark) : (root.walk.map Prod.fst).Nodup := by
  obtain ⟨mark, tag, attributes, text, tail, children⟩ := root
  rw [walk, List.map_cons, List.nodup_cons]
  refine ⟨fun member => ?_, nodup_walkFrom 0 children⟩
  obtain ⟨entry, below, top⟩ := List.mem_map.mp member
  obtain ⟨_, begins, -⟩ := head?_of_mem_walkFrom below
  rw [top] at begins
  cases begins

theorem nodup_walkFrom (first : Nat) (children : List (Element Mark)) :
    ((walkFrom first children).map Prod.fst).Nodup := by
  cases children with
  | nil => exact List.nodup_nil
  | cons child rest =>
      have inside := nodup_walk child
      have following := nodup_walkFrom (first + 1) rest
      have places : ((child.walk.map fun (place, element) => (first :: place, element)).map
          Prod.fst) = (child.walk.map Prod.fst).map (first :: ·) := by
        simp only [List.map_map, Function.comp_def]
      rw [walkFrom, List.map_append, places]
      refine List.nodup_append.mpr ⟨inside.map (List.cons_injective), following, ?_⟩
      rintro _ early _ late rfl
      obtain ⟨below, -, rfl⟩ := List.mem_map.mp early
      obtain ⟨entry, member, same⟩ := List.mem_map.mp late
      obtain ⟨index, begins, lower, -⟩ := head?_of_mem_walkFrom member
      rw [same, List.head?_cons, Option.some_inj] at begins
      omega

end

/-- The hollow places are the least set of places that is closed under being empty without
them. -/
theorem isLeast_hollows (root : Element Mark) :
    IsLeast {gone | ∀ place, root.EmptyWithout gone place → place ∈ gone} root.hollows := by
  constructor
  · rintro place ⟨below, element, found, tagged, textless, inner⟩
    refine ⟨below, element, found, .intro tagged textless ?_ ?_⟩
    · intro child member
      obtain ⟨index, present⟩ := List.mem_iff_getElem?.mp member
      obtain ⟨⟨-, other, there, hollow⟩, -⟩ := inner index child present
      rw [at?_concat, found, Option.bind_some, present] at there
      cases there
      exact hollow
    · intro child member
      obtain ⟨index, present⟩ := List.mem_iff_getElem?.mp member
      exact (inner index child present).2
  · rintro gone closed place ⟨below, element, found, hollow⟩
    induction hollow generalizing place with
    | @intro element tagged textless _ untailed inductionHypothesis =>
        refine closed place ⟨below, element, found, tagged, textless, ?_⟩
        intro index child present
        have member := List.mem_of_getElem? present
        refine ⟨inductionHypothesis child member (by simp) ?_, untailed child member⟩
        rw [at?_concat, found, Option.bind_some, present]

/-! ### What pruning leaves -/

theorem Hollow.filter_walk {element : Element Mark} (hollow : element.Hollow) :
    (element.walk.filter fun (_, found) => !found.isHollow) = [] := by
  induction hollow with
  | @intro element tagged textless below untailed inductionHypothesis =>
      have goes := (isHollow_iff_hollow element).mpr (.intro tagged textless below untailed)
      rw [walk_eq, List.filter_cons_of_neg (by simp [goes])]
      exact @filter_walkFrom_eq_nil Mark (fun found => !found.isHollow) element.children
        inductionHypothesis 0

mutual

theorem outline_prune (element : Element Mark) :
    element.prune.1.outline = Stub.ofEntry ([], element) ::
      ((walkFrom 0 element.children).filter fun (_, found) => !found.isHollow).map
        Stub.ofEntry := by
  obtain ⟨mark, tag, attributes, text, tail, children⟩ := element
  rw [prune_eq, outline_hold, List.nil_append, outlines_pruneAll children 0]

theorem outlines_pruneAll (children : List (Element Mark)) (first : Nat) :
    ((pruneAll children).kept.flatMap fun child => child.outline.map Stub.deeper) =
      ((walkFrom first children).filter fun (_, found) => !found.isHollow).map
        Stub.ofEntry := by
  cases children with
  | nil => rfl
  | cons child rest =>
      have inside := outline_prune child
      have following := outlines_pruneAll rest (first + 1)
      rw [walkFrom, List.filter_append, filter_map_place fun found => !found.isHollow,
        List.map_append, map_ofEntry_below, ← following]
      cases goes : child.isHollow with
      | true =>
          have nothing := ((isHollow_iff_hollow child).mp goes).filter_walk
          rw [pruneAll_cons_hollow goes, nothing, List.map_nil, List.map_nil, List.nil_append]
      | false =>
          rw [pruneAll_cons_solid goes, List.flatMap_cons, outline_withTexts, inside, walk_eq,
            List.filter_cons_of_pos (by simp [goes]), List.map_cons, List.map_cons, List.map_cons]

end

mutual

theorem length_prune (element : Element Mark) :
    element.prune.2.length =
      ((walkFrom 0 element.children).filter fun (_, found) => found.isHollow).length := by
  obtain ⟨mark, tag, attributes, text, tail, children⟩ := element
  rw [prune_eq]
  exact length_pruneAll children 0

theorem length_pruneAll (children : List (Element Mark)) (first : Nat) :
    (pruneAll children).removed.length =
      ((walkFrom first children).filter fun (_, found) => found.isHollow).length := by
  cases children with
  | nil => rfl
  | cons child rest =>
      have inside := length_prune child
      have following := length_pruneAll rest (first + 1)
      rw [walkFrom, List.filter_append, filter_map_place fun found => found.isHollow, walk_eq,
        List.length_append, List.length_map, ← following]
      cases goes : child.isHollow with
      | true =>
          rw [pruneAll_cons_hollow goes, List.filter_cons_of_pos (by simp [goes]),
            List.length_cons, ← inside, List.length_append, List.length_cons]
      | false =>
          rw [pruneAll_cons_solid goes, List.filter_cons_of_neg (by simp [goes]), ← inside,
            List.length_append]

end

/-- Every section and paragraph below the top of a tree has content. -/
inductive Furnished : Element Mark → Prop
  | intro {element : Element Mark} (below : ∀ child ∈ element.children, Furnished child)
      (filled : ∀ child ∈ element.children,
        child.isTagged prunableTags = true → child.hasContent = true) : Furnished element

/-- Neither the text of an element nor the text behind it matters for what lies below. -/
theorem Furnished.withTexts {element : Element Mark} (furnished : element.Furnished)
    (text tail : Option String) :
    ({ element with text := text, tail := tail } : Element Mark).Furnished := by
  obtain ⟨below, filled⟩ := furnished
  exact .intro below filled

mutual

theorem furnished_prune (element : Element Mark) : element.prune.1.Furnished := by
  obtain ⟨mark, tag, attributes, text, tail, children⟩ := element
  rw [prune_eq, hold_nil]
  have all := furnished_pruneAll children
  exact .intro (fun child member => (all child member).1) fun child member =>
    (all child member).2

theorem furnished_pruneAll (children : List (Element Mark)) :
    ∀ child ∈ (pruneAll children).kept, child.Furnished ∧
      (child.isTagged prunableTags = true → child.hasContent = true) := by
  cases children with
  | nil =>
      intro child member
      cases member
  | cons child rest =>
      have inside := furnished_prune child
      have following := furnished_pruneAll rest
      cases goes : child.isHollow with
      | true =>
          rw [pruneAll_cons_hollow goes]
          exact following
      | false =>
          rw [pruneAll_cons_solid goes, List.forall_mem_cons]
          refine ⟨⟨inside.withTexts _ _, fun tagged => ?_⟩, following⟩
          have kind : child.isTagged prunableTags = true := by
            rw [prune_eq] at tagged
            exact tagged
          rw [isHollow_eq, kind, Bool.true_and, Bool.not_eq_false'] at goes
          exact goes

end

theorem pruneAll_of_same {children : List (Element Mark)}
    (same : ∀ child ∈ children, child.prune = (child, []))
    (filled : ∀ child ∈ children,
      child.isTagged prunableTags = true → child.hasContent = true) :
    pruneAll children = ⟨none, children, []⟩ := by
  induction children with
  | nil => rfl
  | cons child rest inductionHypothesis =>
      rw [List.forall_mem_cons] at same filled
      have solid : child.isHollow = false := by
        rw [isHollow_eq, same.1, Bool.and_eq_false_imp, Bool.not_eq_false']
        exact filled.1
      rw [pruneAll_cons_solid solid, same.1, inductionHypothesis same.2 filled.2]
      cases child
      rfl

/-- Nothing is taken out where every section and paragraph has content. -/
theorem Furnished.prune_eq_self {element : Element Mark} (furnished : element.Furnished) :
    element.prune = (element, []) := by
  induction furnished with
  | @intro element below filled inductionHypothesis =>
      rw [prune_eq, pruneAll_of_same inductionHypothesis filled,
        hold_of_empty _ _ _ rfl, withChildren_of_eq (List.nil_append _).symm]

theorem Furnished.hasContent_of_at? {root : Element Mark} (furnished : root.Furnished)
    {place : Place} (below : place ≠ []) {element : Element Mark}
    (found : root.at? place = some element)
    (tagged : element.isTagged prunableTags = true) : element.hasContent = true := by
  induction place generalizing root with
  | nil => exact absurd rfl below
  | cons index rest inductionHypothesis =>
      obtain ⟨inner, filled⟩ := furnished
      rw [at?] at found
      cases present : root.children[index]? with
      | none =>
          rw [present] at found
          cases found
      | some child =>
          rw [present] at found
          have member := List.mem_of_getElem? present
          cases rest with
          | nil =>
              cases found
              exact filled element member tagged
          | cons => exact inductionHypothesis (inner child member) (by simp) found

/-! ### Sweeping -/

section

variable [DecidableEq Mark]

/-- A visit of an element that was seen at a place.  The element must still be there; it is
taken out, and counted, when it is an empty section or paragraph below the top. -/
def visit (state : Element Mark × Nat) (seen : Place × Element Mark) :
    Option (Element Mark × Nat) :=
  match state.1.at? seen.1 with
  | none => none
  | some found =>
      if found.mark ≠ seen.2.mark then none
      else if seen.1 ≠ [] ∧ found.isTagged prunableTags = true ∧ found.hasContent = false then
        some (state.1.modifyAt (·.removeChild (seen.1.getLastD 0)) seen.1.dropLast, state.2 + 1)
      else some state

/-- Visit all elements of a tree, as they were at the beginning, the last one first. -/
def sweep (root : Element Mark) : Option (Element Mark × Nat) :=
  root.walk.reverse.foldlM visit (root, 0)

/-- A visit below a child is a visit of the child. -/
theorem visit_of_split {element child : Element Mark} {before after : List (Element Mark)}
    (split : element.children = before ++ child :: after) (count : Nat)
    {seen : Place × Element Mark} (below : seen.1 ≠ []) :
    visit (element, count) (before.length :: seen.1, seen.2) =
      (visit (child, count) seen).map fun state =>
        ({ element with children := before ++ state.1 :: after }, state.2) := by
  have last : (before.length :: seen.1).getLastD 0 = seen.1.getLastD 0 := by
    obtain ⟨front, final, split⟩ := List.exists_cons_of_ne_nil below
    rw [split]
    rfl
  simp only [visit, at?_of_split split rfl, last, List.dropLast_cons_of_ne_nil below,
    modifyAt_of_split split rfl]
  cases child.at? seen.1 with
  | none => rfl
  | some found =>
      by_cases same : found.mark = seen.2.mark
      · by_cases empty : found.isTagged prunableTags = true ∧ found.hasContent = false
        · simp [same, below, empty]
        · simp [same, below, empty, withChildren_of_eq split]
      · simp [same]

theorem foldlM_visit_of_split {element child : Element Mark} {before after : List (Element Mark)}
    (split : element.children = before ++ child :: after) (count : Nat)
    {seen : List (Place × Element Mark)} (below : ∀ entry ∈ seen, entry.1 ≠ []) :
    (seen.map fun (place, found) => (before.length :: place, found)).foldlM visit
        (element, count) =
      (seen.foldlM visit (child, count)).map fun state =>
        ({ element with children := before ++ state.1 :: after }, state.2) := by
  induction seen generalizing element child count with
  | nil =>
      simp only [List.map_nil, List.foldlM_nil, Option.pure_def, Option.map_some,
        withChildren_of_eq split]
  | cons entry rest inductionHypothesis =>
      rw [List.forall_mem_cons] at below
      rw [List.map_cons, List.foldlM_cons, List.foldlM_cons, visit_of_split split count below.1]
      cases visit (child, count) entry with
      | none => rfl
      | some state => exact inductionHypothesis rfl state.2 below.2

/-- A visit of a child takes it out when it is empty. -/
theorem visit_child {parent child seen : Element Mark} {before after : List (Element Mark)}
    (split : parent.children = before ++ child :: after) (count : Nat)
    (same : child.mark = seen.mark) :
    visit (parent, count) ([before.length], seen) =
      some (if child.isTagged prunableTags = true ∧ child.hasContent = false then
        (parent.hold before child.tail after, count + 1)
      else (parent, count)) := by
  have found : parent.at? [before.length] = some child := at?_of_split split rfl []
  rw [visit, found]
  by_cases empty : child.isTagged prunableTags = true ∧ child.hasContent = false
  · simp [same, empty, modifyAt, removeChild_of_split split]
  · simp [same, empty]

mutual

/-- Visiting all that lies below an element prunes it. -/
theorem foldlM_visit_below (element : Element Mark) (tail : Option String) (count : Nat) :
    (walkFrom 0 element.children).reverse.foldlM visit ({ element with tail := tail }, count) =
      some ({ element.prune.1 with tail := tail }, count + element.prune.2.length) := by
  obtain ⟨mark, tag, attributes, text, oldTail, children⟩ := element
  rw [prune_eq]
  exact foldlM_visit_walkFrom children ⟨mark, tag, attributes, text, tail, []⟩ [] count

/-- When the later children of an element have been visited, they are held behind the
earlier ones, with the text that came loose in front of them. -/
theorem foldlM_visit_walkFrom (children : List (Element Mark)) (holder : Element Mark)
    (before : List (Element Mark)) (count : Nat) :
    (walkFrom before.length children).reverse.foldlM visit
        ({ holder with children := before ++ children }, count) =
      some (holder.hold before (pruneAll children).loose (pruneAll children).kept,
        count + (pruneAll children).removed.length) := by
  cases children with
  | nil =>
      rw [pruneAll, hold_of_empty _ _ _ rfl]
      rfl
  | cons child rest =>
      let joined := joinLoose child.tail (pruneAll rest).loose
      let left : Element Mark := { child.prune.1 with tail := joined }
      let parent (inner : Element Mark) : Element Mark :=
        { holder with children := before ++ inner :: (pruneAll rest).kept }
      let later := count + (pruneAll rest).removed.length
      -- The children that follow come first, then what lies below the child, then the child.
      have following : (walkFrom (before.length + 1) rest).reverse.foldlM visit
          ({ holder with children := before ++ child :: rest }, count) =
            some (parent { child with tail := joined }, later) := by
        have visited := foldlM_visit_walkFrom rest holder (before ++ [child]) count
        rwa [List.length_append, List.length_singleton, List.append_assoc,
          List.singleton_append, hold_concat] at visited
      have inside : ((walkFrom 0 child.children).reverse.map fun (place, found) =>
          (before.length :: place, found)).foldlM visit
            (parent { child with tail := joined }, later) =
          some (parent left, later + child.prune.2.length) := by
        have below : ∀ entry ∈ (walkFrom 0 child.children).reverse, entry.1 ≠ [] := by
          rintro ⟨place, found⟩ member rfl
          exact nil_notMem_walkFrom (List.mem_reverse.mp member)
        rw [foldlM_visit_of_split rfl later below, foldlM_visit_below child joined later]
        rfl
      have top : visit (parent left, later + child.prune.2.length) ([before.length], child) =
          some (if child.isHollow = true then
            (holder.hold before joined (pruneAll rest).kept, later + child.prune.2.length + 1)
          else (parent left, later + child.prune.2.length)) := by
        have emptied : (left.isTagged prunableTags = true ∧ left.hasContent = false) ↔
            child.isHollow = true := by
          rw [isHollow_eq, ← isTagged_prune prunableTags child, Bool.and_eq_true,
            Bool.not_eq_true']
          rfl
        have same : left.mark = child.mark := child.mark_prune
        rw [visit_child rfl _ same, hold_withChildren]
        simp only [emptied]
        rfl
      rw [walkFrom, walk_eq, List.map_cons, List.reverse_append, List.reverse_cons,
        ← List.map_reverse, List.foldlM_append, following, Option.bind_eq_bind, Option.bind_some,
        List.foldlM_append, inside, Option.bind_eq_bind, Option.bind_some, List.foldlM_cons, top]
      cases goes : child.isHollow with
      | true =>
        have total : later + child.prune.2.length + 1 = count +
            (child.prune.1.detached :: child.prune.2 ++ (pruneAll rest).removed).length := by
          simp [later]
          omega
        rw [pruneAll_cons_hollow goes, ← total]
        rfl
      | false =>
        have total : later + child.prune.2.length =
            count + (child.prune.2 ++ (pruneAll rest).removed).length := by
          simp [later]
          omega
        rw [pruneAll_cons_solid goes, ← total,
          hold_of_empty holder before _ (rfl : (none : Option String).getD "" = "")]
        rfl

end

/-- A sweep finds every element where it was seen, and prunes the tree. -/
theorem sweep_eq (root : Element Mark) :
    root.sweep = some (root.prune.1, root.prune.2.length) := by
  have below := foldlM_visit_below root root.tail 0
  have top : visit (root.prune.1, root.prune.2.length) ([], root) =
      some (root.prune.1, root.prune.2.length) := by
    simp [visit, at?, mark_prune]
  rw [withTail_of_eq rfl, withTail_of_eq root.tail_prune, Nat.zero_add] at below
  rw [sweep, walk_eq, List.reverse_cons, List.foldlM_append, below, Option.bind_eq_bind,
    Option.bind_some, List.foldlM_cons, top]
  rfl

end

/-! ### The result -/

theorem mem_hollows_iff_isHollow {root element : Element Mark} {place : Place}
    (inside : (place, element) ∈ walkFrom 0 root.children) :
    place ∈ root.hollows ↔ element.isHollow = true := by
  have found : root.at? place = some element := by
    rw [← mem_walk_iff, walk_eq]
    exact List.mem_cons_of_mem _ inside
  rw [isHollow_iff_hollow]
  constructor
  · rintro ⟨-, other, there, hollow⟩
    rw [found] at there
    cases there
    exact hollow
  · intro hollow
    refine ⟨?_, element, found, hollow⟩
    rintro rfl
    exact nil_notMem_walkFrom inside

/-- The hollow places in document order. -/
def hollowPlaces (root : Element Mark) : List Place :=
  ((walkFrom 0 root.children).filter fun (_, found) => found.isHollow).map Prod.fst

theorem mem_hollowPlaces_iff {root : Element Mark} {place : Place} :
    place ∈ root.hollowPlaces ↔ place ∈ root.hollows := by
  rw [hollowPlaces, List.mem_map]
  constructor
  · rintro ⟨⟨_, element⟩, member, rfl⟩
    obtain ⟨inside, hollow⟩ := List.mem_filter.mp member
    exact (mem_hollows_iff_isHollow inside).mpr hollow
  · intro member
    obtain ⟨below, element, found, -⟩ := id member
    have inside : (place, element) ∈ walkFrom 0 root.children := by
      have listed := mem_walk_iff.mpr found
      rw [walk_eq, List.mem_cons, Prod.mk.injEq] at listed
      exact listed.resolve_left fun top => below top.1
    exact ⟨_, List.mem_filter.mpr ⟨inside, (mem_hollows_iff_isHollow inside).mp member⟩, rfl⟩

theorem nodup_hollowPlaces (root : Element Mark) : root.hollowPlaces.Nodup :=
  (nodup_walkFrom 0 root.children).sublist (List.filter_sublist.map Prod.fst)

theorem hollows_eq_toFinset (root : Element Mark) : root.hollows = root.hollowPlaces.toFinset := by
  ext place
  rw [Finset.mem_coe, List.mem_toFinset, mem_hollowPlaces_iff]

theorem finite_hollows (root : Element Mark) : root.hollows.Finite := by
  rw [hollows_eq_toFinset]
  exact Finset.finite_toSet _

/-- There are as many hollow elements as pruning takes out. -/
theorem ncard_hollows (root : Element Mark) : root.hollows.ncard = root.prune.2.length := by
  rw [hollows_eq_toFinset, Set.ncard_coe_finset,
    List.toFinset_card_of_nodup root.nodup_hollowPlaces, hollowPlaces, List.length_map,
    length_prune]

open scoped Classical in
/-- What pruning leaves are the elements whose places are not hollow. -/
theorem outline_prune_eq_filter (root : Element Mark) :
    root.prune.1.outline =
      (root.walk.filter fun (place, _) => place ∉ root.hollows).map Stub.ofEntry := by
  have top : [] ∉ root.hollows := fun member => member.1 rfl
  have below : ∀ entry ∈ walkFrom 0 root.children,
      (!entry.2.isHollow) = decide (entry.1 ∉ root.hollows) := by
    intro entry inside
    rw [Bool.eq_iff_iff, Bool.not_eq_true', decide_eq_true_iff, mem_hollows_iff_isHollow inside,
      Bool.not_eq_true]
  rw [outline_prune, walk_eq, List.filter_cons_of_pos (by simpa using top), List.map_cons,
    List.filter_congr below]

open scoped Classical in
/-- A sweep takes out exactly the hereditarily empty sections and paragraphs.  The places of
these are the least set that is closed under being empty without them; the sweep never
misses an element and counts those that it takes out; all others are left in their order;
and no section or paragraph is left empty, so that nothing is left to prune. -/
theorem sweep_takes_hollows [DecidableEq Mark] (root : Element Mark) :
    IsLeast {gone | ∀ place, root.EmptyWithout gone place → place ∈ gone} root.hollows ∧
      root.hollows.Finite ∧
      root.sweep = some (root.prune.1, root.hollows.ncard) ∧
      root.prune.2.length = root.hollows.ncard ∧
      root.prune.1.outline =
        (root.walk.filter fun (place, _) => place ∉ root.hollows).map Stub.ofEntry ∧
      (¬ ∃ place element, place ≠ [] ∧ root.prune.1.at? place = some element ∧
        element.isTagged prunableTags = true ∧ element.hasContent = false) ∧
      root.prune.1.prune = (root.prune.1, []) ∧
      root.prune.1.sweep = some (root.prune.1, 0) := by
  have furnished := root.furnished_prune
  have again : root.prune.1.prune = (root.prune.1, []) := furnished.prune_eq_self
  refine ⟨root.isLeast_hollows, root.finite_hollows, ?_, root.ncard_hollows.symm,
    root.outline_prune_eq_filter, ?_, again, ?_⟩
  · rw [sweep_eq, ncard_hollows]
  · rintro ⟨place, element, below, found, tagged, empty⟩
    rw [furnished.hasContent_of_at? below found tagged] at empty
    cases empty
  · rw [sweep_eq, again]
    rfl

end Folio.Markup.Element
