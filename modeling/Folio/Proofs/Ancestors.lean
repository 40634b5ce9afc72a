import Folio.Markup.Workbench
import Folio.Proofs.Indentation
import Folio.Proofs.Sweeping
import Mathlib.Data.List.Infix

/-!
# Going up a tree

An element does not know its parent.  To go up from it, each element of a tree is noted
down for each of its children, and the notes are followed until an element has one of the
wanted tags or nothing is noted.  In a tree whose elements have different marks the notes
are the child lists read backwards.  So the way up from an element of the tree is its
ancestry: it ends, at the nearest element that is wanted or behind the top.  An element
of another tree has no ancestors in this one.
-/

namespace Folio.Markup

namespace Element

variable {Mark : Type}

/-! ### Ancestry -/

/-- The element at a place and those above it, the nearest first and the top last. -/
def ancestry (root : Element Mark) (place : Place) : List (Element Mark) :=
  place.inits.reverse.filterMap root.at?

@[simp]
theorem ancestry_nil (root : Element Mark) : root.ancestry [] = [root] := rfl

theorem ancestry_concat {root child : Element Mark} {place : Place} {index : Nat}
    (lies : root.at? (place ++ [index]) = some child) :
    root.ancestry (place ++ [index]) = child :: root.ancestry place := by
  have above : (place ++ [index]).inits = place.inits ++ [place ++ [index]] := by
    simp [List.inits_append]
  rw [ancestry, above, List.reverse_append, List.reverse_singleton, List.singleton_append,
    List.filterMap_cons_some lies, ancestry]

theorem ancestry_cons (root : Element Mark) (index : Nat) (rest : Place) :
    root.ancestry (index :: rest) =
      (root.children[index]?.elim [] (·.ancestry rest)) ++ [root] := by
  have above : (index :: rest).inits.reverse = (rest.inits.map (index :: ·)).reverse ++ [[]] := by
    rw [List.inits_cons, List.reverse_cons]
  have below : root.at? ∘ (index :: ·) = fun place =>
      root.children[index]?.bind (·.at? place) := by
    funext place
    simp only [Function.comp_apply, at?]
    cases root.children[index]? <;> rfl
  rw [ancestry, above, List.filterMap_append, ← List.map_reverse, List.filterMap_map, below]
  cases root.children[index]? with
  | none => simp [at?]
  | some child => rfl

theorem exists_at?_of_closest? {tags : List String} {root : Element Mark} {place found : Place}
    (nearest : root.closest? tags place = some found) :
    ∃ element, root.at? found = some element := by
  induction place generalizing root found with
  | nil =>
      obtain ⟨-, rfl⟩ : root.isTagged tags = true ∧ [] = found := by
        simpa [closest?] using nearest
      exact ⟨root, rfl⟩
  | cons index rest inductionHypothesis =>
      unfold closest? at nearest
      split at nearest
      · rename_i inner below
        cases nearest
        obtain ⟨child, present, nearestBelow⟩ := Option.bind_eq_some_iff.mp below
        rw [at?_cons present]
        exact inductionHypothesis nearestBelow
      · obtain ⟨-, rfl⟩ : root.isTagged tags = true ∧ [] = found := by simpa using nearest
        exact ⟨root, rfl⟩

/-- Looking down a place for the last wanted element is looking through the ancestry for
the first. -/
theorem closest?_eq_find? (tags : List String) (root : Element Mark) (place : Place) :
    (root.closest? tags place).bind root.at? =
      (root.ancestry place).find? (·.isTagged tags) := by
  induction place generalizing root with
  | nil => cases tagged : root.isTagged tags <;> simp [closest?, tagged, at?]
  | cons index rest inductionHypothesis =>
      rw [ancestry_cons, List.find?_append, closest?]
      cases present : root.children[index]? with
      | none => cases tagged : root.isTagged tags <;> simp [tagged, at?]
      | some child =>
          have below := inductionHypothesis child
          simp only [Option.bind_some, Option.elim_some, ← below]
          cases found : child.closest? tags rest with
          | none => cases tagged : root.isTagged tags <;> simp [tagged, at?]
          | some inner =>
              obtain ⟨element, there⟩ := exists_at?_of_closest? found
              simp [at?_cons present, there]

/-! ### Marks -/

/-- The marks of a tree in document order. -/
def marks (root : Element Mark) : List Mark := root.walk.map fun entry => entry.2.mark

theorem map_mark_walkFrom (first : Nat) (children : List (Element Mark)) :
    ((walkFrom first children).map fun entry => entry.2.mark) = children.flatMap marks := by
  induction children generalizing first with
  | nil => rfl
  | cons child rest inductionHypothesis =>
      rw [walkFrom, List.map_append, List.map_map, inductionHypothesis, List.flatMap_cons]
      rfl

theorem marks_eq (root : Element Mark) :
    root.marks = root.mark :: root.children.flatMap marks := by
  rw [marks, walk_eq, List.map_cons, map_mark_walkFrom]

theorem mark_mem_marks {root element : Element Mark} {place : Place}
    (lies : root.at? place = some element) : element.mark ∈ root.marks :=
  List.mem_map.mpr ⟨(place, element), mem_walk_iff.mpr lies, rfl⟩

theorem exists_at?_of_mem_marks {root : Element Mark} {mark : Mark} (member : mark ∈ root.marks) :
    ∃ place element, root.at? place = some element ∧ element.mark = mark := by
  obtain ⟨⟨place, element⟩, inWalk, marked⟩ := List.mem_map.mp member
  exact ⟨place, element, mem_walk_iff.mp inWalk, marked⟩

/-- In a tree with different marks a mark tells the place. -/
theorem place_unique {root first second : Element Mark} (distinct : root.marks.Nodup)
    {place other : Place} (lies : root.at? place = some first)
    (liesOther : root.at? other = some second) (sameMark : first.mark = second.mark) :
    place = other :=
  congrArg Prod.fst (List.inj_on_of_nodup_map distinct (mem_walk_iff.mpr lies)
    (mem_walk_iff.mpr liesOther) sameMark)

theorem at?_append (root : Element Mark) (above below : Place) :
    root.at? (above ++ below) = (root.at? above).bind (·.at? below) := by
  induction above generalizing root with
  | nil => rfl
  | cons index rest inductionHypothesis =>
      simp only [List.cons_append, at?]
      cases root.children[index]? with
      | none => rfl
      | some child => exact inductionHypothesis child

/-- A tree with different marks has different marks in each of its parts. -/
theorem nodup_marks_of_at? {root top : Element Mark} (distinct : root.marks.Nodup)
    {place : Place} (lies : root.at? place = some top) : top.marks.Nodup := by
  refine List.Nodup.map_on ?_ (List.Nodup.of_map Prod.fst (nodup_walk top))
  rintro ⟨first, element⟩ inWalk ⟨second, other⟩ otherInWalk sameMark
  have liesFirst := mem_walk_iff.mp inWalk
  have liesSecond := mem_walk_iff.mp otherInWalk
  have samePlace : place ++ first = place ++ second :=
    place_unique distinct (by rw [at?_append, lies, Option.bind_some, liesFirst])
      (by rw [at?_append, lies, Option.bind_some, liesSecond]) sameMark
  obtain rfl := List.append_cancel_left samePlace
  rw [liesFirst] at liesSecond
  cases liesSecond
  rfl

/-! ### The record of parents -/

theorem mem_parentPairs {root child parent : Element Mark} :
    (child, parent) ∈ root.parentPairs ↔
      ∃ (place : Place) (index : Nat),
        root.at? place = some parent ∧ parent.children[index]? = some child := by
  simp only [parentPairs, List.mem_flatMap, List.mem_map, Prod.mk.injEq]
  constructor
  · rintro ⟨⟨place, found⟩, inWalk, noted, isChild, rfl, rfl⟩
    obtain ⟨index, present⟩ := List.mem_iff_getElem?.mp isChild
    exact ⟨place, index, mem_walk_iff.mp inWalk, present⟩
  · rintro ⟨place, index, lies, present⟩
    exact ⟨(place, parent), mem_walk_iff.mpr lies, child, List.mem_of_getElem? present, rfl, rfl⟩

theorem at?_child {root parent child : Element Mark} {place : Place} {index : Nat}
    (lies : root.at? place = some parent) (present : parent.children[index]? = some child) :
    root.at? (place ++ [index]) = some child := by
  rw [at?_concat, lies, Option.bind_some, present]

variable [DecidableEq Mark]

/-- The parent noted in a tree for the element with a mark.  Of several notes the last
one counts. -/
def parent? (root : Element Mark) (mark : Mark) : Option (Element Mark) :=
  ((root.parentPairs.filter fun pair => pair.1.mark = mark).getLast?).map Prod.snd

theorem parent?_eq_none {root : Element Mark} {mark : Mark}
    (unnoted : ∀ place index child, root.at? (place ++ [index]) = some child →
      child.mark ≠ mark) : root.parent? mark = none := by
  have nothing : (root.parentPairs.filter fun pair => pair.1.mark = mark) = [] := by
    rw [List.filter_eq_nil_iff]
    rintro ⟨child, parent⟩ member
    obtain ⟨place, index, lies, present⟩ := mem_parentPairs.mp member
    simpa using unnoted place index child (at?_child lies present)
  rw [parent?, nothing]
  rfl

theorem parent?_of_notMem {root : Element Mark} {mark : Mark} (elsewhere : mark ∉ root.marks) :
    root.parent? mark = none := by
  refine parent?_eq_none fun place index child lies marked => ?_
  exact elsewhere (marked ▸ mark_mem_marks lies)

theorem parent?_root {root : Element Mark} (distinct : root.marks.Nodup) :
    root.parent? root.mark = none := by
  refine parent?_eq_none fun place index child lies marked => ?_
  have atTop : place ++ [index] = [] := place_unique distinct lies rfl marked
  simp at atTop

/-- The record of parents is the child lists read backwards. -/
theorem parent?_child {root parent child : Element Mark} (distinct : root.marks.Nodup)
    {place : Place} {index : Nat} (lies : root.at? place = some parent)
    (present : parent.children[index]? = some child) :
    root.parent? child.mark = some parent := by
  have noted : (child, parent) ∈ root.parentPairs.filter fun pair => pair.1.mark = child.mark := by
    simp [mem_parentPairs.mpr ⟨place, index, lies, present⟩]
  obtain ⟨⟨other, holder⟩, last⟩ :=
    Option.ne_none_iff_exists'.mp (mt List.getLast?_eq_none_iff.mp (List.ne_nil_of_mem noted))
  obtain ⟨isNoted, marked⟩ := List.mem_filter.mp (List.mem_of_getLast? last)
  obtain ⟨otherPlace, otherIndex, holderLies, otherPresent⟩ := mem_parentPairs.mp isNoted
  have samePlace : otherPlace ++ [otherIndex] = place ++ [index] :=
    place_unique distinct (at?_child holderLies otherPresent) (at?_child lies present)
      (by simpa using marked)
  obtain ⟨rfl, -⟩ := List.append_inj' samePlace rfl
  rw [parent?, last, Option.map_some, ← lies, holderLies]

/-! ### Going up -/

/-- How going up from an element ends: at an element with one of some tags, or nowhere. -/
inductive Climbs (root : Element Mark) (tags : List String) :
    Element Mark → Option (Element Mark) → Prop
  | stops {element : Element Mark} (tagged : element.isTagged tags = true) :
      Climbs root tags element (some element)
  | leaves {element : Element Mark} (untagged : element.isTagged tags = false)
      (orphan : root.parent? element.mark = none) : Climbs root tags element none
  | rises {element parent : Element Mark} {result : Option (Element Mark)}
      (untagged : element.isTagged tags = false)
      (noted : root.parent? element.mark = some parent)
      (onward : Climbs root tags parent result) : Climbs root tags element result

variable {root start : Element Mark} {tags : List String}

theorem climbs_of_tagged (tagged : start.isTagged tags = true) (result : Option (Element Mark)) :
    root.Climbs tags start result ↔ result = some start := by
  constructor
  · rintro (_ | ⟨untagged, -⟩ | ⟨untagged, -, -⟩)
    · rfl
    · simp [untagged] at tagged
    · simp [untagged] at tagged
  · rintro rfl
    exact .stops tagged

theorem climbs_of_orphan (untagged : start.isTagged tags = false)
    (orphan : root.parent? start.mark = none) (result : Option (Element Mark)) :
    root.Climbs tags start result ↔ result = none := by
  constructor
  · rintro (tagged | - | ⟨-, noted, -⟩)
    · simp [untagged] at tagged
    · rfl
    · simp [orphan] at noted
  · rintro rfl
    exact .leaves untagged orphan

theorem climbs_of_noted (untagged : start.isTagged tags = false) {parent : Element Mark}
    (noted : root.parent? start.mark = some parent) (result : Option (Element Mark)) :
    root.Climbs tags start result ↔ root.Climbs tags parent result := by
  refine ⟨?_, fun onward => .rises untagged noted onward⟩
  rintro (tagged | ⟨-, orphan⟩ | ⟨-, notedAlso, onward⟩)
  · simp [untagged] at tagged
  · simp [noted] at orphan
  · rw [noted] at notedAlso
    cases notedAlso
    exact onward

/-- Going up from an element of the tree ends at the first wanted element of its
ancestry. -/
theorem climbs_iff_of_at? (distinct : root.marks.Nodup) {place : Place}
    (lies : root.at? place = some start) (result : Option (Element Mark)) :
    root.Climbs tags start result ↔
      result = (root.ancestry place).find? (·.isTagged tags) := by
  induction place using List.reverseRecOn generalizing start with
  | nil =>
      obtain rfl : root = start := by simpa [at?] using lies
      cases tagged : root.isTagged tags with
      | true => simpa [tagged] using climbs_of_tagged tagged result
      | false => simpa [tagged] using climbs_of_orphan tagged (parent?_root distinct) result
  | append_singleton above index inductionHypothesis =>
      rw [ancestry_concat lies]
      cases tagged : start.isTagged tags with
      | true => simpa [tagged] using climbs_of_tagged tagged result
      | false =>
          obtain ⟨parent, liesAbove, present⟩ := Option.bind_eq_some_iff.mp (at?_concat .. ▸ lies)
          have noted := parent?_child distinct liesAbove present
          rw [climbs_of_noted tagged noted, inductionHypothesis liesAbove,
            List.find?_cons_of_neg (by simp [tagged])]

/-- An element that is not in the tree has no ancestors there. -/
theorem climbs_iff_of_notMem (elsewhere : start.mark ∉ root.marks)
    (result : Option (Element Mark)) :
    root.Climbs tags start result ↔
      result = if start.isTagged tags then some start else none := by
  cases tagged : start.isTagged tags with
  | true => simpa [tagged] using climbs_of_tagged tagged result
  | false => simpa [tagged] using climbs_of_orphan tagged (parent?_of_notMem elsewhere) result

end Element

/-! ### Going up on a workbench -/

namespace Workbench

/-- The numbers of all elements on a bench. -/
def marks (bench : Workbench) : List Nat := bench.trees.flatMap Element.marks

variable {bench : Workbench} {number index : Nat} {tree found : Element Nat} {place : Place}

theorem placeIn?_eq_some (located : placeIn? number tree = some place) :
    ∃ element, tree.at? place = some element ∧ element.mark = number := by
  obtain ⟨⟨_, element⟩, sought, rfl⟩ := Option.map_eq_some_iff.mp located
  exact ⟨element, Element.mem_walk_iff.mp (List.mem_of_find?_eq_some sought),
    by simpa using List.find?_some sought⟩

theorem locate_eq_ok (located : bench.locate number = .ok (index, place)) :
    ∃ tree element, bench.trees[index]? = some tree ∧ tree.at? place = some element ∧
      element.mark = number := by
  dsimp only [locate] at located
  split at located
  · cases located
  · rename_i position sought
    cases located
    obtain ⟨⟨tree, treeIndex⟩, member, chosen⟩ := List.exists_of_findSome?_eq_some sought
    obtain ⟨treePlace, inTree, same⟩ := Option.map_eq_some_iff.mp chosen
    cases same
    obtain ⟨element, lies, marked⟩ := placeIn?_eq_some inTree
    exact ⟨tree, element, (List.mem_zipIdx_iff_getElem?.mp member), lies, marked⟩

theorem element_eq_ok (present : bench.element number = .ok found) :
    ∃ index tree place, bench.locate number = .ok (index, place) ∧
      bench.trees[index]? = some tree ∧ tree.at? place = some found ∧ found.mark = number := by
  unfold element at present
  cases located : bench.locate number with
  | error fault => simp [located, bind, Except.bind] at present
  | ok position =>
      obtain ⟨index, place⟩ := position
      obtain ⟨tree, element, inTrees, lies, marked⟩ := locate_eq_ok located
      simp only [located, bind, Except.bind, inTrees, Option.bind_some, lies] at present
      cases present
      exact ⟨index, tree, place, rfl, inTrees, lies, marked⟩

/-- On a bench with different numbers a number tells the tree. -/
theorem index_unique (distinct : bench.marks.Nodup) {other : Nat} {first second : Element Nat}
    (inTrees : bench.trees[index]? = some first) (otherInTrees : bench.trees[other]? = some second)
    (inFirst : number ∈ first.marks) (inSecond : number ∈ second.marks) : index = other := by
  obtain ⟨bound, rfl⟩ := List.getElem?_eq_some_iff.mp inTrees
  obtain ⟨otherBound, rfl⟩ := List.getElem?_eq_some_iff.mp otherInTrees
  have apart := List.pairwise_iff_getElem.mp (List.nodup_flatMap.mp distinct).2
  rcases Nat.lt_trichotomy index other with before | same | behind
  · exact absurd inSecond (apart index other bound otherBound before inFirst)
  · exact same
  · exact absurd inFirst (apart other index otherBound bound behind inSecond)

theorem nodup_marks_of_getElem? (distinct : bench.marks.Nodup)
    (inTrees : bench.trees[index]? = some tree) : tree.marks.Nodup :=
  (List.nodup_flatMap.mp distinct).1 tree (List.mem_of_getElem? inTrees)

/-- The nearest element with one of some tags, for an element that lies in the tree below
a root or outside it. -/
structure IsNearest (top start : Element Nat) (tags : List String)
    (nearest : Option (Element Nat)) : Prop where
  inside : ∀ place, top.at? place = some start →
    nearest = (top.ancestry place).find? (·.isTagged tags)
  outside : start.mark ∉ top.marks → nearest = if start.isTagged tags then some start else none

variable {root : Nat} {top start : Element Nat}

/-- Going up from an element towards a root ends, at the nearest element with one of the
tags, and the bench finds the same. -/
theorem exists_nearest (distinct : bench.marks.Nodup) (rootLies : bench.element root = .ok top)
    (startLies : bench.element number = .ok start) (tags : List String) :
    ∃ nearest, (∀ result, top.Climbs tags start result ↔ result = nearest) ∧
      IsNearest top start tags nearest ∧
      bench.closest root number tags = .ok (nearest.map Element.mark) := by
  obtain ⟨rootIndex, rootTree, rootPlace, rootLocated, rootInTrees, topLies, -⟩ :=
    element_eq_ok rootLies
  obtain ⟨startIndex, startTree, startPlace, startLocated, startInTrees, lies, marked⟩ :=
    element_eq_ok startLies
  have treeDistinct := nodup_marks_of_getElem? distinct rootInTrees
  have topDistinct := Element.nodup_marks_of_at? treeDistinct topLies
  simp only [closest, rootLocated, startLocated, bind, Except.bind]
  by_cases below : (rootIndex == startIndex && rootPlace.isPrefixOf startPlace) = true
  · obtain ⟨sameIndex, isAbove⟩ := Bool.and_eq_true_iff.mp below
    obtain rfl : rootIndex = startIndex := by simpa using sameIndex
    obtain ⟨rest, rfl⟩ := List.isPrefixOf_iff_prefix.mp isAbove
    rw [rootInTrees] at startInTrees
    cases startInTrees
    have liesBelow : top.at? rest = some start := by
      rwa [Element.at?_append, topLies, Option.bind_some] at lies
    refine ⟨(top.ancestry rest).find? (·.isTagged tags),
      Element.climbs_iff_of_at? topDistinct liesBelow, ⟨fun place liesAlso => ?_, ?_⟩, ?_⟩
    · rw [Element.place_unique topDistinct liesAlso liesBelow rfl]
    · exact fun elsewhere => absurd (Element.mark_mem_marks liesBelow) elsewhere
    · rw [if_pos below, rootLies, List.drop_left, ← Element.closest?_eq_find?]
  · have elsewhere : start.mark ∉ top.marks := by
      intro member
      obtain ⟨inner, element, found, sameMark⟩ := Element.exists_at?_of_mem_marks member
      have foundBelow : rootTree.at? (rootPlace ++ inner) = some element := by
        rw [Element.at?_append, topLies, Option.bind_some, found]
      obtain rfl := index_unique distinct rootInTrees startInTrees
        (sameMark ▸ Element.mark_mem_marks foundBelow) (Element.mark_mem_marks lies)
      rw [rootInTrees] at startInTrees
      cases startInTrees
      have samePlace := Element.place_unique treeDistinct foundBelow lies sameMark
      exact below (by simp [← samePlace])
    refine ⟨if start.isTagged tags then some start else none,
      Element.climbs_iff_of_notMem elsewhere, ⟨fun place liesAlso => ?_, fun _ => rfl⟩, ?_⟩
    · exact absurd (Element.mark_mem_marks liesAlso) elsewhere
    · rw [if_neg below, startLies]
      cases tagged : start.isTagged tags <;> simp [tagged, marked]

/-! ### Numbering -/

variable {Mark : Type}

mutual

/-- Numbering gives consecutive numbers to the elements of a tree. -/
theorem marks_number (first : Nat) (tree : Element Mark) :
    (Workbench.number first tree).1.marks = List.range' first tree.marks.length ∧
      (Workbench.number first tree).2 = first + tree.marks.length := by
  obtain ⟨mark, tag, attributes, text, tail, children⟩ := tree
  obtain ⟨inside, last⟩ := marks_numberAll (first + 1) children
  simp only [Workbench.number, Element.marks_eq, List.length_cons, List.range'_succ, inside, last,
    true_and]
  omega

theorem marks_numberAll (first : Nat) (children : List (Element Mark)) :
    (numberAll first children).1.flatMap Element.marks =
        List.range' first (children.flatMap Element.marks).length ∧
      (numberAll first children).2 = first + (children.flatMap Element.marks).length := by
  cases children with
  | nil => exact ⟨rfl, rfl⟩
  | cons child rest =>
      obtain ⟨inside, last⟩ := marks_number first child
      obtain ⟨following, lastFollowing⟩ :=
        marks_numberAll (first + child.marks.length) rest
      simp only [numberAll, List.flatMap_cons, List.length_append, inside, last, following,
        lastFollowing]
      exact ⟨List.range'_append_1, by omega⟩

end

/-- A numbered tree has different marks. -/
theorem nodup_marks_number (first : Nat) (tree : Element Mark) :
    (Workbench.number first tree).1.marks.Nodup := by
  rw [(marks_number first tree).1]
  exact List.nodup_range'

theorem nodup_marks_ofTree (tree : Element Mark) : (ofTree tree).marks.Nodup := by
  have single : (ofTree tree).marks = (Workbench.number 0 tree).1.marks := by
    simp [marks, ofTree]
  rw [single]
  exact nodup_marks_number 0 tree

theorem getElem?_numberAll (first : Nat) (children : List (Element Mark)) (index : Nat) :
    ∃ next, (numberAll first children).1[index]? =
      children[index]?.map fun child => (Workbench.number next child).1 := by
  induction children generalizing first index with
  | nil => exact ⟨0, rfl⟩
  | cons child rest inductionHypothesis =>
      cases index with
      | zero => exact ⟨first, rfl⟩
      | succ index => exact inductionHypothesis _ index

theorem tag_number (first : Nat) (tree : Element Mark) :
    (Workbench.number first tree).1.tag = tree.tag := by
  cases tree
  rfl

theorem children_number (first : Nat) (tree : Element Mark) :
    (Workbench.number first tree).1.children = (numberAll (first + 1) tree.children).1 := by
  cases tree
  rfl

/-- Numbers do not matter to a search for a container. -/
theorem closest?_number (first : Nat) (tree : Element Mark) (tags : List String)
    (place : Place) :
    (Workbench.number first tree).1.closest? tags place = tree.closest? tags place := by
  have sameTag (next : Nat) (element : Element Mark) :
      (Workbench.number next element).1.isTagged tags = element.isTagged tags := by
    simp [Element.isTagged, tag_number]
  induction place generalizing first tree with
  | nil => simp only [Element.closest?, sameTag]
  | cons index rest inductionHypothesis =>
      obtain ⟨next, inside⟩ := getElem?_numberAll (first + 1) tree.children index
      simp only [Element.closest?, children_number, inside, sameTag]
      cases tree.children[index]? with
      | none => rfl
      | some child => simp only [Option.map_some, Option.bind_some, inductionHypothesis]

/-- Numbers do not matter to places. -/
theorem exists_at?_number (first : Nat) {tree found : Element Mark} {place : Place}
    (lies : tree.at? place = some found) :
    ∃ numbered, (Workbench.number first tree).1.at? place = some numbered := by
  induction place generalizing first tree with
  | nil => exact ⟨_, rfl⟩
  | cons index rest inductionHypothesis =>
      obtain ⟨next, inside⟩ := getElem?_numberAll (first + 1) tree.children index
      cases present : tree.children[index]? with
      | none => simp [Element.at?, present] at lies
      | some child =>
          rw [present, ← children_number] at inside
          rw [Element.at?_cons present] at lies
          rw [Element.at?_cons inside]
          exact inductionHypothesis next lies

/-- Going up a numbered tree ends where a search from the top ends. -/
theorem climbs_number (first : Nat) {root start : Element Mark} {tags : List String}
    {place container : Place} (lies : root.at? place = some start)
    (closest : root.closest? tags place = some container) :
    ∃ numbered found,
      (Workbench.number first root).1.at? place = some numbered ∧
        (Workbench.number first root).1.at? container = some found ∧
        ∀ result, (Workbench.number first root).1.Climbs tags numbered result ↔
          result = some found := by
  have nearest := closest?_number first root tags place
  rw [closest] at nearest
  obtain ⟨numbered, numberedLies⟩ := exists_at?_number first lies
  obtain ⟨found, foundLies⟩ := Element.exists_at?_of_closest? nearest
  have wanted := Element.closest?_eq_find? tags (Workbench.number first root).1 place
  rw [nearest, Option.bind_some, foundLies] at wanted
  refine ⟨numbered, found, numberedLies, foundLies, fun result => ?_⟩
  rw [Element.climbs_iff_of_at? (nodup_marks_number _ root) numberedLies, wanted]

end Workbench

end Folio.Markup
