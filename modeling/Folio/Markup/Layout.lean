import Folio.Markup.Element

/-!
# Layout of block structure

The children of a block container are laid out one a line.  Only the slots
between them are used for that: the container's own text and the tails of its
children, and these only while they hold nothing but blanks.  The text of
paragraphs, headings, cells and inline elements is never touched, so inline
runs that adjoin stay adjoined.
-/

namespace Folio.Markup

/-- Elements whose children are laid out as blocks. -/
def blockContainers : List String :=
  ["html", "head", "body", "section", "table", "tr", "aside"]

/-- A new line, indented by a number of steps; none for a negative number. -/
def lineIndent (step : String) (level : Int) : String :=
  "\n" ++ String.join (List.replicate level.toNat step)

/-- Lay out a slot, unless it holds more than blanks. -/
def fillSlot (layout : String) (slot : Option String) : Option String :=
  if Text.isBlankText (slot.getD "") then some layout else slot

namespace Element

variable {Mark : Type}

mutual
/-- Lay out the block structure below an element that stands at a level. -/
def layOut (step : String) (level : Int) : Element Mark → Element Mark
  | ⟨mark, tag, attributes, text, tail, children⟩ =>
      if blockContainers.contains tag && !children.isEmpty then
        ⟨mark, tag, attributes, fillSlot (lineIndent step (level + 1)) text, tail,
          layOutAll step level children⟩
      else ⟨mark, tag, attributes, text, tail, children⟩

/-- Lay out consecutive children of a container that stands at a level.  The
slot after the last one leads back to the container's own level. -/
def layOutAll (step : String) (level : Int) : List (Element Mark) → List (Element Mark)
  | [] => []
  | child :: rest =>
      let inner := child.layOut step (level + 1)
      let slot := fillSlot (lineIndent step (level + 1)) inner.tail
      { inner with
        tail := if rest.isEmpty then fillSlot (lineIndent step level) slot else slot } ::
        layOutAll step level rest
end

end Element

end Folio.Markup
