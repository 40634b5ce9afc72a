import Folio.Proofs.Search
import Folio.Render.Pass

/-!
# Flows

Paragraphs, headings and cells hold a flow: text runs, links, anchors, images
and references to notes, one after the other.  A flow is kept as the list of
its items; the markup it stands for is what appending the items one by one
leaves in an element.

Text inside an open link is added to an item that need not be the last one.
That this is the same as appending to the element of the link, wherever it has
come to stand, is the main fact of this file: what is appended later touches no
earlier child but for the tail of the last.
-/

namespace Folio

open Markup Render

/-- An element without its text and children. -/
def Markup.Element.shell (element : Node) : Node :=
  { element with text := none, children := [] }

/-- An element with another text after it. -/
def Markup.Element.withTail (element : Node) (tail : Option String) : Node :=
  { element with tail := tail }

/-- An element with a tooltip, if that is not empty. -/
def Draft.hinted (hint : Option String) (element : Node) : Node :=
  match hint with
  | none | some "" => element
  | some hint => element.set "title" hint

namespace Draft

/-- One thing in a flow. -/
inductive Item where
  | text (run : TextRun)
  /-- A link with the runs inside it. -/
  | link (address : String) (hint : Option String) (runs : List TextRun)
  | anchor (name : String)
  | image (source : String) (hint : Option String)
  /-- The reference to a note. -/
  | marker (number : Nat)
  deriving DecidableEq

def linkNode (address : String) (hint : Option String) (runs : List TextRun) : Node :=
  runs.foldl (fun link run => appendRun run link)
    (hinted hint (.new () "a" [("href", address)]))

def anchorNode (name : String) : Node := .new () "a" [("name", name)]

def imageNode (source : String) (hint : Option String) : Node :=
  hinted hint (.new () "img" [("src", source)])

/-- Append an item to the element that holds the flow. -/
def Item.put : Item → Node → Node
  | .text run, holder => appendRun run holder
  | .link address hint runs, holder => holder.appendChild (linkNode address hint runs)
  | .anchor name, holder => holder.appendChild (anchorNode name)
  | .image source hint, holder => holder.appendChild (imageNode source hint)
  | .marker number, holder => holder.appendChild (Pass.noteMarker number)

/-- Append the items of a flow to an element. -/
def flow (items : List Item) (holder : Node) : Node :=
  items.foldl (fun grown item => item.put grown) holder

/-- How many children a run adds to the element that holds it. -/
def runWidth (run : TextRun) : Nat :=
  if wrappers run.style = [] then (Text.linesOf run.text).length - 1 else 1

def Item.width : Item → Nat
  | .text run => runWidth run
  | _ => 1

/-- How many children a flow has. -/
def width : List Item → Nat
  | [] => 0
  | item :: rest => item.width + width rest

/-- An item with another run inside it, if it is a link. -/
def Item.addRun (run : TextRun) : Item → Item
  | .link address hint runs => .link address hint (runs ++ [run])
  | item => item

@[simp]
theorem flow_nil (holder : Node) : flow [] holder = holder := rfl

@[simp]
theorem flow_append (before after : List Item) (holder : Node) :
    flow (before ++ after) holder = flow after (flow before holder) :=
  List.foldl_append

theorem flow_cons (item : Item) (rest : List Item) (holder : Node) :
    flow (item :: rest) holder = flow rest (item.put holder) := rfl

/-! ### What appending leaves as it is -/

theorem tag_eq_of_shell {first second : Node} (same : first.shell = second.shell) :
    first.tag = second.tag := by
  change first.shell.tag = second.shell.tag
  rw [same]

theorem tail_eq_of_shell {first second : Node} (same : first.shell = second.shell) :
    first.tail = second.tail := by
  change first.shell.tail = second.shell.tail
  rw [same]

@[simp]
theorem shell_appendChild (holder child : Node) :
    (holder.appendChild child).shell = holder.shell := rfl

@[simp]
theorem shell_appendText (holder : Node) (addition : String) :
    (holder.appendText addition).shell = holder.shell := by
  unfold Element.appendText
  split <;> rfl

@[simp]
theorem shell_appendPieces (holder : Node) (pieces : List String) :
    (appendPieces holder pieces).shell = holder.shell := by
  cases pieces with
  | nil => rfl
  | cons first rest => exact shell_appendText holder first

@[simp]
theorem shell_appendRun (run : TextRun) (holder : Node) :
    (appendRun run holder).shell = holder.shell := by
  unfold appendRun
  cases wrappers run.style with
  | nil => exact shell_appendPieces holder _
  | cons outer inner => rfl

@[simp]
theorem shell_put (item : Item) (holder : Node) : (item.put holder).shell = holder.shell := by
  cases item with
  | text run => exact shell_appendRun run holder
  | _ => rfl

@[simp]
theorem shell_flow (items : List Item) (holder : Node) :
    (flow items holder).shell = holder.shell := by
  induction items generalizing holder with
  | nil => rfl
  | cons item rest inductionHypothesis =>
      rw [flow_cons, inductionHypothesis, shell_put]

@[simp]
theorem tag_flow (items : List Item) (holder : Node) : (flow items holder).tag = holder.tag :=
  tag_eq_of_shell (shell_flow items holder)

@[simp]
theorem tail_flow (items : List Item) (holder : Node) :
    (flow items holder).tail = holder.tail :=
  tail_eq_of_shell (shell_flow items holder)

/-- A link is its empty element with its runs as a flow. -/
theorem linkNode_eq_flow (address : String) (hint : Option String) (runs : List TextRun) :
    linkNode address hint runs =
      flow (runs.map .text) (hinted hint (.new () "a" [("href", address)])) := by
  rw [flow, List.foldl_map]
  rfl

theorem foldl_addClass (names : List String) (element : Node) :
    ∃ attributes, names.foldl Element.addClass element =
      { element with attributes := attributes } := by
  induction names generalizing element with
  | nil => exact ⟨element.attributes, by cases element; rfl⟩
  | cons name rest inductionHypothesis =>
      obtain ⟨attributes, classed⟩ := inductionHypothesis (element.addClass name)
      exact ⟨attributes, by rw [List.foldl_cons, classed]; rfl⟩

/-! ### Children of a flow -/

theorem appendText_of_children {holder last : Node} {earlier : List Node}
    (split : holder.children = earlier ++ [last]) (addition : String) :
    holder.appendText addition =
      { holder with
        children := earlier ++ [last.withTail (extendText last.tail addition)] } := by
  simp [Element.appendText, Element.withTail, split]

theorem appendText_of_no_children {holder : Node} (empty : holder.children = [])
    (addition : String) :
    holder.appendText addition = { holder with text := extendText holder.text addition } := by
  simp [Element.appendText, empty]

theorem length_children_appendText (holder : Node) (addition : String) :
    (holder.appendText addition).children.length = holder.children.length := by
  rcases List.eq_nil_or_concat holder.children with empty | ⟨earlier, last, split⟩
  · rw [appendText_of_no_children empty]
  · rw [List.concat_eq_append] at split
    simp [appendText_of_children split, split]

theorem length_children_appendPieces (holder : Node) (pieces : List String) :
    (appendPieces holder pieces).children.length =
      holder.children.length + (pieces.length - 1) := by
  cases pieces with
  | nil => rfl
  | cons first rest => simp [appendPieces, length_children_appendText]

theorem length_children_appendRun (run : TextRun) (holder : Node) :
    (appendRun run holder).children.length = holder.children.length + runWidth run := by
  unfold appendRun runWidth
  cases wrappers run.style with
  | nil => exact length_children_appendPieces holder _
  | cons outer inner => simp [appendWrapped, Element.appendChild]

theorem length_children_put (item : Item) (holder : Node) :
    (item.put holder).children.length = holder.children.length + item.width := by
  cases item with
  | text run => exact length_children_appendRun run holder
  | _ => simp [Item.put, Item.width, Element.appendChild]

theorem length_children_flow (items : List Item) (holder : Node) :
    (flow items holder).children.length = holder.children.length + width items := by
  induction items generalizing holder with
  | nil => rfl
  | cons item rest inductionHypothesis =>
      rw [flow_cons, inductionHypothesis, length_children_put]
      simp [width, Nat.add_assoc]

/-! ### Text inside an open link -/

/-- A change of an element that does not look at its tail. -/
def KeepsTail (change : Node → Node) : Prop :=
  ∀ (element : Node) (tail : Option String),
    change (element.withTail tail) = (change element).withTail tail

theorem KeepsTail.tail_eq {change : Node → Node} (keeps : KeepsTail change)
    (element : Node) : (change element).tail = element.tail := by
  have unchanged : element.withTail element.tail = element := by
    cases element
    rfl
  have retailed := keeps element element.tail
  rw [unchanged] at retailed
  rw [retailed]
  rfl

theorem keepsTail_appendText (addition : String) :
    KeepsTail (·.appendText addition) := by
  intro element tail
  simp only [Element.appendText, Element.withTail]
  cases element.children.getLast? <;> rfl

theorem keepsTail_appendRun (run : TextRun) : KeepsTail (appendRun run) := by
  intro element tail
  unfold appendRun
  cases wrappers run.style with
  | cons outer inner => rfl
  | nil =>
      cases Text.linesOf run.text with
      | nil => rfl
      | cons first rest =>
          simp only [appendWrapped, appendPieces, keepsTail_appendText first element tail]
          rfl

theorem modifyAt_append_children {change : Node → Node} {holder : Node} {index : Nat}
    (earlier : index < holder.children.length) (more : List Node) :
    Element.modifyAt change [index] { holder with children := holder.children ++ more } =
      { holder with
        children := (holder.modifyAt change [index]).children ++ more } := by
  simp only [Element.modifyAt, modify_append_of_lt _ earlier]

/-- Text put at the end does not stand in the way of a change of a child, not
even of the last one, whose tail it extends. -/
theorem appendText_modifyAt {change : Node → Node} (keeps : KeepsTail change)
    {holder : Node} {index : Nat} (earlier : index < holder.children.length)
    (addition : String) :
    (holder.modifyAt change [index]).appendText addition =
      (holder.appendText addition).modifyAt change [index] := by
  have nonempty : holder.children ≠ [] := List.ne_nil_of_length_pos (by omega)
  obtain ⟨init, last, split⟩ := (List.eq_nil_or_concat holder.children).resolve_left nonempty
  rw [List.concat_eq_append] at split
  rw [appendText_of_children split]
  by_cases isLast : index = init.length
  · subst isLast
    have changed : (holder.modifyAt change [init.length]).children =
        init ++ [change last] := by
      rw [Element.modifyAt_of_split split rfl]
      rfl
    rw [appendText_of_children changed]
    have retailed := keeps last (extendText last.tail addition)
    simp only [Element.modifyAt, modify_between, retailed, keeps.tail_eq]
  · have before : index < init.length := by
      rw [split, List.length_append, List.length_singleton] at earlier
      omega
    have changed : (holder.modifyAt change [index]).children =
        init.modify index change ++ [last] := by
      simp only [Element.modifyAt, split, modify_append_of_lt _ before]
    rw [appendText_of_children changed]
    simp only [Element.modifyAt, modify_append_of_lt _ before]

theorem appendRun_modifyAt {change : Node → Node} (keeps : KeepsTail change)
    {holder : Node} {index : Nat} (earlier : index < holder.children.length)
    (run : TextRun) :
    appendRun run (holder.modifyAt change [index]) =
      (appendRun run holder).modifyAt change [index] := by
  unfold appendRun
  cases wrappers run.style with
  | cons outer inner => exact (modifyAt_append_children earlier _).symm
  | nil =>
      cases Text.linesOf run.text with
      | nil => rfl
      | cons first rest =>
          have begun : index < (holder.appendText first).children.length := by
            rw [length_children_appendText]
            exact earlier
          simp only [appendWrapped, appendPieces, appendText_modifyAt keeps earlier]
          exact (modifyAt_append_children begun _).symm

theorem put_modifyAt {change : Node → Node} (keeps : KeepsTail change)
    {holder : Node} {index : Nat} (earlier : index < holder.children.length)
    (item : Item) :
    item.put (holder.modifyAt change [index]) =
      (item.put holder).modifyAt change [index] := by
  cases item with
  | text run => exact appendRun_modifyAt keeps earlier run
  | _ => exact (modifyAt_append_children earlier _).symm

theorem flow_modifyAt {change : Node → Node} (keeps : KeepsTail change)
    {holder : Node} {index : Nat} (earlier : index < holder.children.length)
    (items : List Item) :
    flow items (holder.modifyAt change [index]) =
      (flow items holder).modifyAt change [index] := by
  induction items generalizing holder with
  | nil => rfl
  | cons item rest inductionHypothesis =>
      have still : index < (item.put holder).children.length := by
        rw [length_children_put]
        omega
      rw [flow_cons, flow_cons, put_modifyAt keeps earlier, inductionHypothesis still]

/-- Adding a run to the element of a link, wherever it stands in a flow, is
adding it to the item. -/
theorem flow_addRun {holder : Node} (empty : holder.children = [])
    (before after : List Item) (address : String) (hint : Option String)
    (runs : List TextRun) (run : TextRun) :
    (flow (before ++ .link address hint runs :: after) holder).modifyAt
        (appendRun run) [width before] =
      flow (before ++ .link address hint (runs ++ [run]) :: after) holder := by
  have count : (flow before holder).children.length = width before := by
    rw [length_children_flow, empty]
    simp
  have stands : width before <
      ((flow before holder).appendChild (linkNode address hint runs)).children.length := by
    simp [Element.appendChild, count]
  simp only [flow_append, flow_cons, Item.put]
  rw [← flow_modifyAt (keepsTail_appendRun run) stands]
  congr 1
  rw [Element.modifyAt_of_split rfl count]
  simp [Element.appendChild, Element.modifyAt, linkNode]

end Draft

end Folio
