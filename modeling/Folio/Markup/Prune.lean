import Folio.Markup.Element

/-!
# Pruning

Sections and paragraphs without content leave no trace in a finished tree.
Pruning works from the leaves up, so an element whose only content was pruned
away goes too.  An empty text node is content, and text that follows a pruned
element stays: it joins the text in front of it, and so can keep its parent.
-/

namespace Folio.Markup

/-- The tags of elements that are pruned when they have no content. -/
def prunableTags : List String := ["section", "p"]

namespace Element

variable {Mark : Type}

/-- Whether an element with this tag, text and children is to go. -/
def isPrunable (tag : String) (text : Option String) (children : List (Element Mark)) : Bool :=
  prunableTags.contains tag && children.isEmpty && text.isNone

/-- What pruning makes of consecutive children: the text that comes loose in
front of the first one left, the children left, and those taken out. -/
structure Pruned (Mark : Type) where
  loose : Option String
  kept : List (Element Mark)
  removed : List (Element Mark)

/-- Loose text joins the end of a slot; none, or an empty one, changes
nothing. -/
def joinLoose (slot loose : Option String) : Option String :=
  match loose with
  | none | some "" => slot
  | some addition => extendText slot addition

mutual
/-- The element with every prunable descendant taken out, and the elements
taken out.  The element itself stays. -/
def prune : Element Mark → Element Mark × List (Element Mark)
  | ⟨mark, tag, attributes, text, tail, children⟩ =>
      let inner := pruneAll children
      (⟨mark, tag, attributes, joinLoose text inner.loose, tail, inner.kept⟩, inner.removed)

/-- Prune consecutive children, the last one first. -/
def pruneAll : List (Element Mark) → Pruned Mark
  | [] => ⟨none, [], []⟩
  | child :: rest =>
      let following := pruneAll rest
      let (inner, removed) := child.prune
      let tail := joinLoose inner.tail following.loose
      if isPrunable inner.tag inner.text inner.children then
        ⟨tail, following.kept, inner.detached :: removed ++ following.removed⟩
      else
        ⟨none, { inner with tail := tail } :: following.kept, removed ++ following.removed⟩
end

end Element

end Folio.Markup
