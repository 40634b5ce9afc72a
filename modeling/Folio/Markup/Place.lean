import Folio.Markup.Element

/-!
# Places in a tree

A place is the list of child indices that leads from an element to one of its
descendants; the empty place is the element itself.  A place stays right while
children are only appended, so it can be kept across changes that add content
at the end.  Searches answer with places, and changes are made at places.
-/

namespace Folio.Markup

/-- The child indices that lead from an element down to a descendant. -/
abbrev Place := List Nat

namespace Element

variable {Mark : Type}

def at? : Element Mark → Place → Option (Element Mark)
  | element, [] => some element
  | element, index :: rest =>
      match element.children[index]? with
      | none => none
      | some child => child.at? rest

/-- Change the element at a place; a place outside the tree changes nothing. -/
def modifyAt (change : Element Mark → Element Mark) : Place → Element Mark → Element Mark
  | [], element => change element
  | index :: rest, element =>
      { element with children := element.children.modify index (modifyAt change rest) }

mutual
/-- The element and all its descendants in document order, each with its
place. -/
def walk : Element Mark → List (Place × Element Mark)
  | ⟨mark, tag, attributes, text, tail, children⟩ =>
      ([], ⟨mark, tag, attributes, text, tail, children⟩) :: walkFrom 0 children

/-- The walks of consecutive children, the first of which has the given
index. -/
def walkFrom : Nat → List (Element Mark) → List (Place × Element Mark)
  | _, [] => []
  | index, child :: rest =>
      (child.walk.map fun (place, element) => (index :: place, element)) ++
        walkFrom (index + 1) rest
end

/-- The descendants in document order, without the element itself, that pass a
test. -/
def descendants (accept : Element Mark → Bool) (element : Element Mark) :
    List (Place × Element Mark) :=
  (walkFrom 0 element.children).filter fun (_, descendant) => accept descendant

/-- The last descendant in document order that passes a test. -/
def lastDescendant? (accept : Element Mark → Bool) (element : Element Mark) :
    Option (Place × Element Mark) :=
  (element.descendants accept).getLast?

/-- The last child that passes a test, with its index. -/
def lastChild? (accept : Element Mark → Bool) (element : Element Mark) :
    Option (Nat × Element Mark) :=
  ((element.children.zipIdx.filter fun (child, _) => accept child).getLast?).map
    fun (child, index) => (index, child)

/-- The nearest of the element at a place and its ancestors that has one of the
given tags. -/
def closest? (tags : List String) : Element Mark → Place → Option Place
  | element, [] => if element.isTagged tags then some [] else none
  | element, index :: rest =>
      match (element.children[index]?).bind fun child => child.closest? tags rest with
      | some found => some (index :: found)
      | none => if element.isTagged tags then some [] else none

/-- Every child below the element, paired with its parent. -/
def parentPairs (element : Element Mark) : List (Element Mark × Element Mark) :=
  element.walk.flatMap fun (_, parent) => parent.children.map fun child => (child, parent)

/-- Put a child at the end of the element at a place; the second component is
the place of the child. -/
def appendAt (element : Element Mark) (place : Place) (child : Element Mark) :
    Element Mark × Place :=
  let index := ((element.at? place).map fun parent => parent.children.length).getD 0
  (element.modifyAt (·.appendChild child) place, place ++ [index])

end Element

end Folio.Markup
