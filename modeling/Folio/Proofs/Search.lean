import Folio.Markup.Place

/-!
# Searches in document order

A search for the last element with some tag reads the whole tree, but its answer
depends only on the last child that holds such an element.  When the later
children are known to lack the tags, the search descends into that child; this
file states that rule for one level of a tree, so that a search through several
levels is a chain of its uses.
-/

namespace Folio.Markup

theorem modify_between {Item : Type} (change : Item → Item) (before after : List Item)
    (item : Item) :
    (before ++ item :: after).modify before.length change =
      before ++ change item :: after := by
  induction before with
  | nil => rfl
  | cons first rest inductionHypothesis =>
      simp only [List.cons_append, List.length_cons, List.modify_succ_cons,
        inductionHypothesis]

theorem split_of_getElem? {Item : Type} {list : List Item} {index : Nat} {item : Item}
    (found : list[index]? = some item) :
    ∃ before after, list = before ++ item :: after ∧ before.length = index := by
  obtain ⟨bound, rfl⟩ := List.getElem?_eq_some_iff.mp found
  refine ⟨list.take index, list.drop (index + 1), ?_, ?_⟩
  · rw [← List.drop_eq_getElem_cons bound, List.take_append_drop]
  · rw [List.length_take]
    omega

theorem modify_append_of_lt {Item : Type} (change : Item → Item) {before : List Item}
    {index : Nat} (bound : index < before.length) (after : List Item) :
    (before ++ after).modify index change = before.modify index change ++ after := by
  obtain ⟨first, second, split, rfl⟩ := split_of_getElem? (List.getElem?_eq_getElem bound)
  rw [split, List.append_assoc, List.cons_append, modify_between, modify_between,
    List.append_assoc, List.cons_append]

namespace Element

variable {Mark : Type}

/-- No element of a tree, the top included, bears one of the tags. -/
inductive Lacks (tags : List String) : Element Mark → Prop
  | intro {element : Element Mark} (untagged : element.isTagged tags = false)
      (below : ∀ child ∈ element.children, Lacks tags child) : Lacks tags element

/-- The last element of a tree in document order, the top included, that passes
a test. -/
def lastWithin? (accept : Element Mark → Bool) (element : Element Mark) :
    Option (Place × Element Mark) :=
  (element.walk.filter fun (_, found) => accept found).getLast?

theorem walk_eq (element : Element Mark) :
    element.walk = ([], element) :: walkFrom 0 element.children := by
  cases element
  rfl

theorem walkFrom_append (index : Nat) (before after : List (Element Mark)) :
    walkFrom index (before ++ after) =
      walkFrom index before ++ walkFrom (index + before.length) after := by
  induction before generalizing index with
  | nil => simp [walkFrom]
  | cons child rest inductionHypothesis =>
      have position : index + (rest.length + 1) = index + 1 + rest.length := by omega
      simp [walkFrom, inductionHypothesis, position]

theorem filter_map_place (accept : Element Mark → Bool) (index : Nat)
    (entries : List (Place × Element Mark)) :
    ((entries.map fun (place, element) => (index :: place, element)).filter
        fun (_, found) => accept found) =
      (entries.filter fun (_, found) => accept found).map
        fun (place, element) => (index :: place, element) := by
  rw [List.filter_map]
  rfl

theorem filter_walkFrom_eq_nil {accept : Element Mark → Bool}
    {children : List (Element Mark)}
    (none : ∀ child ∈ children, (child.walk.filter fun (_, found) => accept found) = [])
    (index : Nat) :
    ((walkFrom index children).filter fun (_, found) => accept found) = [] := by
  induction children generalizing index with
  | nil => rfl
  | cons child rest inductionHypothesis =>
      rw [walkFrom, List.filter_append, filter_map_place,
        none child List.mem_cons_self,
        inductionHypothesis (fun later member => none later (List.mem_cons_of_mem _ member))]
      rfl

theorem length_filter_walkFrom (accept : Element Mark → Bool) (index : Nat)
    (children : List (Element Mark)) :
    ((walkFrom index children).filter fun (_, found) => accept found).length =
      (children.flatMap fun child =>
        child.walk.filter fun (_, found) => accept found).length := by
  induction children generalizing index with
  | nil => rfl
  | cons child rest inductionHypothesis =>
      rw [walkFrom, List.filter_append, filter_map_place, List.length_append,
        List.length_map, inductionHypothesis, List.flatMap_cons, List.length_append]

theorem Lacks.filter_walk {tags : List String} {element : Element Mark}
    (lacks : Lacks tags element) :
    (element.walk.filter fun (_, found) => found.isTagged tags) = [] := by
  induction lacks with
  | intro untagged _ inductionHypothesis =>
      rw [walk_eq, List.filter_cons_of_neg (by simp [untagged])]
      exact filter_walkFrom_eq_nil inductionHypothesis 0

theorem lastDescendant?_eq_none {tags : List String} {element : Element Mark}
    (below : ∀ child ∈ element.children, Lacks tags child) :
    element.lastDescendant? (·.isTagged tags) = none := by
  rw [lastDescendant?, descendants,
    filter_walkFrom_eq_nil (fun child member => (below child member).filter_walk)]
  rfl

/-- The last descendant lies in the last child that holds any, when the children
after that one hold none. -/
theorem lastDescendant?_of_split {tags : List String} {element child found : Element Mark}
    {before after : List (Element Mark)} {index : Nat} {place : Place}
    (split : element.children = before ++ child :: after) (position : before.length = index)
    (later : ∀ sibling ∈ after, Lacks tags sibling)
    (within : child.lastWithin? (·.isTagged tags) = some (place, found)) :
    element.lastDescendant? (·.isTagged tags) = some (index :: place, found) := by
  subst position
  have none : ((walkFrom (0 + before.length + 1) after).filter
      fun (_, candidate) => candidate.isTagged tags) = [] :=
    filter_walkFrom_eq_nil (fun sibling member => (later sibling member).filter_walk) _
  rw [lastDescendant?, descendants, split, walkFrom_append, walkFrom]
  simp only [List.filter_append, filter_map_place, none, List.append_nil,
    List.getLast?_append, List.getLast?_map]
  rw [lastWithin?] at within
  simp [within]

/-- The last element within a tree is the last one below its top, when there is
one. -/
theorem lastWithin?_of_lastDescendant? {accept : Element Mark → Bool}
    {element : Element Mark} {entry : Place × Element Mark}
    (below : element.lastDescendant? accept = some entry) :
    element.lastWithin? accept = some entry := by
  rw [lastDescendant?, descendants] at below
  cases accepted : accept element with
  | false => simpa [lastWithin?, walk_eq, List.filter_cons, accepted] using below
  | true =>
      simp only [lastWithin?, walk_eq, List.filter_cons, accepted, if_true,
        List.getLast?_cons, below]
      rfl

theorem lastWithin?_self {accept : Element Mark → Bool} {element : Element Mark}
    (accepted : accept element = true) (below : element.lastDescendant? accept = none) :
    element.lastWithin? accept = some ([], element) := by
  rw [lastDescendant?, descendants] at below
  simp only [lastWithin?, walk_eq, List.filter_cons, accepted, if_true,
    List.getLast?_cons, below]
  rfl

theorem lastChild?_of_split {accept : Element Mark → Bool} {element child : Element Mark}
    {before after : List (Element Mark)} {index : Nat}
    (split : element.children = before ++ child :: after) (position : before.length = index)
    (accepted : accept child = true) (later : ∀ sibling ∈ after, accept sibling = false) :
    element.lastChild? accept = some (index, child) := by
  subst position
  have none : (after.zipIdx (before.length + 1)).filter (fun entry => accept entry.1) = [] := by
    rw [List.filter_eq_nil_iff]
    intro entry member
    simp [later entry.1 (List.fst_mem_of_mem_zipIdx member)]
  simp [lastChild?, split, List.zipIdx_append, List.zipIdx_cons, List.filter_append,
    accepted, none]

theorem lastChild?_eq_none {accept : Element Mark → Bool} {element : Element Mark}
    (rejected : ∀ child ∈ element.children, accept child = false) :
    element.lastChild? accept = none := by
  rw [lastChild?, List.filter_eq_nil_iff.mpr]
  · rfl
  · intro entry member
    simp [rejected entry.1 (List.fst_mem_of_mem_zipIdx member)]

theorem at?_of_split {element child : Element Mark} {before after : List (Element Mark)}
    {index : Nat} (split : element.children = before ++ child :: after)
    (position : before.length = index) (place : Place) :
    element.at? (index :: place) = child.at? place := by
  subst position
  simp [at?, split]

/-- A change at a place below another place is a change of the element there. -/
theorem modifyAt_append (change : Element Mark → Element Mark) (outer inner : Place)
    (element : Element Mark) :
    element.modifyAt change (outer ++ inner) =
      element.modifyAt (modifyAt change inner) outer := by
  induction outer generalizing element with
  | nil => rfl
  | cons index rest inductionHypothesis =>
      simp only [List.cons_append, modifyAt]
      congr 1
      exact congrArg (element.children.modify index) (funext inductionHypothesis)

theorem modifyAt_of_split {element child : Element Mark} {before after : List (Element Mark)}
    {index : Nat} (split : element.children = before ++ child :: after)
    (position : before.length = index) (change : Element Mark → Element Mark)
    (place : Place) :
    element.modifyAt change (index :: place) =
      { element with children := before ++ child.modifyAt change place :: after } := by
  subst position
  rw [modifyAt, split, modify_between]

/-- The nearest of an element and its ancestors with one of some tags, when it is
found at or below a known child. -/
theorem closest?_of_split {tags : List String} {element child : Element Mark}
    {before after : List (Element Mark)} {index : Nat} {place found : Place}
    (split : element.children = before ++ child :: after) (position : before.length = index)
    (below : child.closest? tags place = some found) :
    element.closest? tags (index :: place) = some (index :: found) := by
  subst position
  simp [closest?, split, below]

theorem closest?_self_of_split {tags : List String} {element child : Element Mark}
    {before after : List (Element Mark)} {index : Nat} {place : Place}
    (split : element.children = before ++ child :: after) (position : before.length = index)
    (below : child.closest? tags place = none) (tagged : element.isTagged tags = true) :
    element.closest? tags (index :: place) = some [] := by
  subst position
  simp [closest?, split, below, tagged]

end Element

end Folio.Markup
