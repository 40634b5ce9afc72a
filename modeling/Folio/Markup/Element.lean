import Folio.Text.Blank

/-!
# Elements

A markup tree is an element with a tag, ordered attributes and children.  Text
is kept where it stands: an element holds the text before its first child, and
each child holds the text that follows it, its tail.  An absent text and an
empty one are different things: an empty text is still a text node.

Every element carries a mark of a type chosen by the user of the tree.  A tree
that is only built and printed has the unit type for its marks; a tree whose
elements must be told apart has numbers.
-/

namespace Folio.Markup

structure Element (Mark : Type) where
  mark : Mark
  tag : String
  attributes : List (String × String)
  text : Option String
  /-- The text after the element, inside its parent. -/
  tail : Option String
  children : List (Element Mark)

abbrev Node := Element Unit

def extendText (slot : Option String) (addition : String) : Option String :=
  some (slot.getD "" ++ addition)

/-- Give an attribute a value: a present one keeps its position, a new one goes
to the end. -/
def setAttribute (name value : String) : List (String × String) → List (String × String)
  | [] => [(name, value)]
  | (other, current) :: rest =>
      if other = name then (name, value) :: rest
      else (other, current) :: setAttribute name value rest

def attributesOf (settings : List (String × String)) : List (String × String) :=
  settings.foldl (fun attributes (name, value) => setAttribute name value attributes) []

namespace Element

variable {Mark : Type}

def new (mark : Mark) (tag : String) (attributes : List (String × String)) : Element Mark :=
  ⟨mark, tag, attributes, none, none, []⟩

/-- Put an element after the last child and its tail. -/
def appendChild (parent child : Element Mark) : Element Mark :=
  { parent with children := parent.children ++ [child] }

/-- Put text after the last child, or into the element itself when it has no
child. -/
def appendText (parent : Element Mark) (addition : String) : Element Mark :=
  match parent.children.getLast? with
  | none => { parent with text := extendText parent.text addition }
  | some last =>
      { parent with
        children :=
          parent.children.dropLast ++ [{ last with tail := extendText last.tail addition }] }

def set (element : Element Mark) (name value : String) : Element Mark :=
  { element with attributes := setAttribute name value element.attributes }

def get? (element : Element Mark) (name : String) : Option String :=
  element.attributes.lookup name

def classes (element : Element Mark) : List String :=
  Text.words ((element.get? "class").getD "")

/-- Add a class unless the element has it.  The class list is written anew in
either case, its words one space apart. -/
def addClass (element : Element Mark) (name : String) : Element Mark :=
  let present := element.classes
  element.set "class"
    (" ".intercalate (if present.contains name then present else present ++ [name]))

/-- Whether the element holds a child or a text node, if only an empty one. -/
def hasContent (element : Element Mark) : Bool :=
  !element.children.isEmpty || element.text.isSome

def isTagged (tags : List String) (element : Element Mark) : Bool :=
  tags.contains element.tag

def insertChild (parent : Element Mark) (index : Nat) (child : Element Mark) : Element Mark :=
  { parent with children := parent.children.insertIdx index child }

/-- Text in front of the child at an index: the end of the preceding child's
tail, or of the parent's own text when there is no preceding child. -/
def extendBefore (parent : Element Mark) (index : Nat) (addition : String) : Element Mark :=
  match index with
  | 0 => { parent with text := extendText parent.text addition }
  | previous + 1 =>
      { parent with
        children :=
          parent.children.modify previous fun child =>
            { child with tail := extendText child.tail addition } }

/-- Take out the child at an index.  The text that followed it stays where it
stood. -/
def removeChild (parent : Element Mark) (index : Nat) : Element Mark :=
  let followed :=
    match parent.children[index]?.bind Element.tail with
    | none | some "" => parent
    | some tail => parent.extendBefore index tail
  { followed with children := followed.children.eraseIdx index }

/-- An element taken out of its parent: the text that followed it is not its
own. -/
def detached (element : Element Mark) : Element Mark :=
  { element with tail := none }

end Element

end Folio.Markup
