import Folio.Markup.Place
import Folio.Markup.Prune

/-!
# Workbench

A workbench holds trees whose elements bear numbers, so that an element can be
named in a request after it has moved or left its tree.  New elements get the
next number.  An element that is taken out of its parent stays on the bench as
the root of a tree of its own.
-/

namespace Folio.Markup

/-- Numbered trees, and the number for the next new element. -/
structure Workbench where
  trees : List (Element Nat)
  next : Nat

namespace Workbench

inductive Fault where
  /-- The number belongs to no element on the bench. -/
  | unknownElement (number : Nat)
  /-- The element to insert before is not a child of the parent. -/
  | notAChild
  /-- The element to take out is not a child of the parent. -/
  | nothingToRemove
  /-- An attribute of a new element bears a name that is taken. -/
  | takenName (name : String)
  deriving DecidableEq, Repr

/-- The wording of a fault; a child that is missing is not described. -/
def Fault.message : Fault → String
  | .unknownElement number => s!"no element {number}"
  | .notAChild => "reference element is not a child of parent"
  | .nothingToRemove => ""
  | .takenName name => "append_element() got multiple values for argument '" ++ name ++ "'"

mutual
/-- Number an element and its descendants in document order, from a number on;
the second component is the first number not used. -/
def number {Mark : Type} (first : Nat) : Element Mark → Element Nat × Nat
  | ⟨_, tag, attributes, text, tail, children⟩ =>
      let (numbered, next) := numberAll (first + 1) children
      (⟨first, tag, attributes, text, tail, numbered⟩, next)

def numberAll {Mark : Type} (first : Nat) : List (Element Mark) → List (Element Nat) × Nat
  | [] => ([], first)
  | child :: rest =>
      let (numbered, next) := number first child
      let (following, last) := numberAll next rest
      (numbered :: following, last)
end

def ofTree {Mark : Type} (root : Element Mark) : Workbench :=
  let (numbered, next) := number 0 root
  ⟨[numbered], next⟩

def placeIn? (number : Nat) (tree : Element Nat) : Option Place :=
  (tree.walk.find? fun (_, element) => element.mark == number).map Prod.fst

/-- The tree that holds a numbered element, by index, and the place there. -/
def locate (bench : Workbench) (number : Nat) : Except Fault (Nat × Place) :=
  let located := bench.trees.zipIdx.findSome? fun (tree, index) =>
    (placeIn? number tree).map fun place => (index, place)
  match located with
  | none => .error (.unknownElement number)
  | some position => .ok position

def element (bench : Workbench) (number : Nat) : Except Fault (Element Nat) := do
  let (index, place) ← bench.locate number
  match (bench.trees[index]?).bind fun tree => tree.at? place with
  | none => .error (.unknownElement number)
  | some found => .ok found

def modify (bench : Workbench) (number : Nat) (change : Element Nat → Element Nat) :
    Except Fault Workbench := do
  let (index, place) ← bench.locate number
  .ok { bench with trees := bench.trees.modify index (Element.modifyAt change place) }

/-- Names that say where a new element goes and what it is, so that its
attributes cannot bear them. -/
def takenNames : List String := ["parent", "tag"]

def appendElement (bench : Workbench) (parent : Nat) (tag : String)
    (attributes : List (String × String)) : Except Fault (Workbench × Nat) := do
  match (attributes.map Prod.fst).find? takenNames.contains with
  | some name => .error (.takenName name)
  | none =>
      let child := Element.new bench.next tag (attributesOf attributes)
      let changed ← bench.modify parent (·.appendChild child)
      .ok ({ changed with next := bench.next + 1 }, bench.next)

/-- The numbers of the descendants with one of the tags, or of all of them when
no tag is given, in document order. -/
def descendants (bench : Workbench) (number : Nat) (tags : List String) :
    Except Fault (List Nat) := do
  let root ← bench.element number
  .ok ((root.descendants (accepts tags)).map fun (_, found) => found.mark)
where
  accepts (tags : List String) (candidate : Element Nat) : Bool :=
    tags.isEmpty || candidate.isTagged tags

/-- The last descendant with one of the tags, or with any tag. -/
def lastDescendant (bench : Workbench) (number : Nat) (tags : List String) :
    Except Fault (Option Nat) := do
  let root ← bench.element number
  .ok ((root.lastDescendant? (descendants.accepts tags)).map fun (_, found) => found.mark)

/-- The last child with one of the tags, or with any tag. -/
def lastChild (bench : Workbench) (number : Nat) (tags : List String) :
    Except Fault (Option Nat) := do
  let root ← bench.element number
  .ok ((root.lastChild? (descendants.accepts tags)).map fun (_, found) => found.mark)

/-- Whether one element is another or one of its descendants. -/
def contains (bench : Workbench) (ancestor number : Nat) : Except Fault Bool := do
  let (ancestorTree, ancestorPlace) ← bench.locate ancestor
  let (tree, place) ← bench.locate number
  .ok (ancestorTree == tree && ancestorPlace.isPrefixOf place)

/-- Every element below another one with its parent, ordered by the number of
the child. -/
def parents (bench : Workbench) (number : Nat) : Except Fault (List (Nat × Nat)) := do
  let root ← bench.element number
  let pairs := root.parentPairs.map fun (child, parent) => (child.mark, parent.mark)
  .ok (pairs.mergeSort fun left right => left.1 ≤ right.1)

/-- The nearest of an element and its ancestors up to a root that has one of
the tags.  An element that is not below the root has no ancestors there. -/
def closest (bench : Workbench) (root number : Nat) (tags : List String) :
    Except Fault (Option Nat) := do
  let (rootTree, rootPlace) ← bench.locate root
  let (tree, place) ← bench.locate number
  if rootTree == tree && rootPlace.isPrefixOf place then
    let top ← bench.element root
    .ok (((top.closest? tags (place.drop rootPlace.length)).bind top.at?).map Element.mark)
  else
    let alone ← bench.element number
    .ok (if alone.isTagged tags then some number else none)

def insertBefore (bench : Workbench) (parent reference : Nat) (tag : String) :
    Except Fault (Workbench × Nat) := do
  let holder ← bench.element parent
  match holder.children.findIdx? fun child => child.mark == reference with
  | none => .error .notAChild
  | some index =>
      let changed ← bench.modify parent (·.insertChild index (.new bench.next tag []))
      .ok ({ changed with next := bench.next + 1 }, bench.next)

/-- Take a child out of its parent; it becomes a tree of its own. -/
def remove (bench : Workbench) (parent child : Nat) : Except Fault Workbench := do
  let holder ← bench.element parent
  match holder.children.findIdx? fun candidate => candidate.mark == child with
  | none => .error .nothingToRemove
  | some index =>
      let removed ← bench.element child
      let changed ← bench.modify parent (·.removeChild index)
      .ok { changed with trees := changed.trees ++ [removed.detached] }

/-- Prune below an element; the second component counts what went. -/
def prune (bench : Workbench) (number : Nat) : Except Fault (Workbench × Nat) := do
  let root ← bench.element number
  let (pruned, removed) := root.prune
  let changed ← bench.modify number fun _ => pruned
  .ok ({ changed with trees := changed.trees ++ removed }, removed.length)

end Workbench

end Folio.Markup
