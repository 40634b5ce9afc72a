import Folio.Proofs.Items

/-!
# Elements in document order

The elements of a tree are read in document order.  A test that formatting, line
breaks and blocks other than notes do not pass picks anchors, images and notes.
Which of these stand in a block is known from its items: every item but a text
stands for one element, and text adds only line breaks and formatting.  Text put
behind an element becomes its tail, so tails are left out of the comparison.
-/

namespace Folio

open Markup Render

namespace Markup.Element

variable {Mark : Type}

/-- An element and all elements below it, in document order. -/
def elements (element : Element Mark) : List (Element Mark) := element.walk.map Prod.snd

theorem map_snd_walkFrom (index : Nat) (children : List (Element Mark)) :
    (walkFrom index children).map Prod.snd = children.flatMap elements := by
  induction children generalizing index with
  | nil => rfl
  | cons child rest inductionHypothesis =>
      rw [walkFrom, List.map_append, inductionHypothesis, List.flatMap_cons, List.map_map]
      rfl

theorem elements_eq (element : Element Mark) :
    element.elements = element :: element.children.flatMap elements := by
  rw [elements, walk_eq, List.map_cons, map_snd_walkFrom]

/-- The elements of a tree that pass a test, each without the text that follows
it. -/
def picked (test : Node → Bool) (element : Node) : List Node :=
  (element.elements.filter test).map detached

def pickedBelow (test : Node → Bool) (element : Node) : List Node :=
  element.children.flatMap (picked test)

/-- A test that only anchors, images and notes pass, whatever follows them. -/
structure Selective (test : Node → Bool) : Prop where
  tailless (element : Node) (tail : Option String) : test (element.withTail tail) = test element
  tagged (element : Node) (passes : test element = true) : element.tag ∈ ["a", "img", "aside"]

theorem pickedBelow_eq (test : Node → Bool) (element : Node) :
    pickedBelow test element =
      ((element.children.flatMap elements).filter test).map detached := by
  rw [List.filter_flatMap, List.map_flatMap]
  rfl

theorem picked_eq (test : Node → Bool) (element : Node) :
    picked test element =
      (if test element then [element.detached] else []) ++ pickedBelow test element := by
  rw [picked, elements_eq, pickedBelow_eq]
  cases passes : test element <;> simp [passes]

theorem picked_of_fails {test : Node → Bool} {element : Node} (fails : test element = false) :
    picked test element = pickedBelow test element := by
  simp [picked_eq, fails]

/-- What passes a narrower test is picked already. -/
theorem filter_picked {test chosen : Node → Bool}
    (tailless : ∀ element, chosen element.detached = chosen element)
    (narrow : ∀ element, chosen element = true → test element = true) (element : Node) :
    (picked test element).filter chosen = (element.elements.filter chosen).map detached := by
  rw [picked, List.filter_map, List.filter_filter]
  refine congrArg (List.map detached) (List.filter_congr fun below _ => ?_)
  rw [Function.comp_apply, tailless, Bool.and_eq_left_iff_imp]
  exact narrow below

theorem countP_picked {test chosen : Node → Bool}
    (tailless : ∀ element, chosen element.detached = chosen element)
    (narrow : ∀ element, chosen element = true → test element = true) (element : Node) :
    (picked test element).countP chosen = element.elements.countP chosen := by
  rw [List.countP_eq_length_filter, filter_picked tailless narrow, List.length_map,
    List.countP_eq_length_filter]

variable {test : Node → Bool} (selective : Selective test)
include selective

theorem Selective.fails {element : Node} {tag : String} (tagged : element.tag = tag)
    (other : tag ∉ ["a", "img", "aside"]) : test element = false := by
  cases passes : test element with
  | false => rfl
  | true => exact absurd (tagged ▸ selective.tagged element passes) other

theorem Selective.picked_withTail (element : Node) (tail : Option String) :
    picked test (element.withTail tail) = picked test element := by
  rw [picked_eq, picked_eq, selective.tailless]
  rfl

theorem Selective.picked_of_lacks {element : Node}
    (lacks : Lacks ["a", "img", "aside"] element) : picked test element = [] := by
  induction lacks with
  | @intro element untagged below inductionHypothesis =>
      have fails : test element = false := selective.fails rfl (by simpa [isTagged] using untagged)
      rw [picked_of_fails fails, pickedBelow, List.flatMap_eq_nil_iff]
      exact inductionHypothesis

theorem Selective.pickedBelow_appendText (holder : Node) (addition : String) :
    pickedBelow test (holder.appendText addition) = pickedBelow test holder := by
  rcases List.eq_nil_or_concat holder.children with empty | ⟨earlier, last, split⟩
  · rw [Draft.appendText_of_no_children empty]
    rfl
  · rw [List.concat_eq_append] at split
    rw [Draft.appendText_of_children split]
    simp [pickedBelow, split, selective.picked_withTail]

omit selective in
theorem pickedBelow_append_children (holder : Node) (more : List Node) :
    pickedBelow test { holder with children := holder.children ++ more } =
      pickedBelow test holder ++ more.flatMap (picked test) := by
  simp [pickedBelow]

/-- A run adds nothing that is picked. -/
theorem Selective.pickedBelow_appendRun (run : TextRun) (holder : Node) :
    pickedBelow test (appendRun run holder) = pickedBelow test holder := by
  unfold appendRun
  cases wrapped : wrappers run.style with
  | nil =>
      rw [appendWrapped]
      cases Text.linesOf run.text with
      | nil => rfl
      | cons first rest =>
          have breaks : (rest.map lineBreak).flatMap (picked test) = [] := by
            rw [List.flatMap_eq_nil_iff]
            intro child member
            obtain ⟨piece, -, rfl⟩ := List.mem_map.mp member
            exact selective.picked_of_lacks
              ((Draft.formatted_lineBreak [] piece).lacks (by decide) (by simp))
          rw [appendPieces, pickedBelow_append_children, breaks, List.append_nil,
            selective.pickedBelow_appendText]
  | cons outer inner =>
      have childless := Draft.wrappers_childless run.style
      have ordered := Draft.wrappers_ordered run.style
      rw [wrapped] at childless ordered
      have formatted := Draft.formatted_appendWrapped childless ordered (Text.linesOf run.text)
      have nothing := selective.picked_of_lacks (formatted.lacks (by decide) fun _ member => member)
      rw [appendWrapped, appendChild, pickedBelow_append_children, List.flatMap_singleton, nothing,
        List.append_nil]

end Markup.Element

namespace Draft

open Markup.Element

/-! ### Attributes -/

theorem get?_eq_of_shell {first second : Node} (same : first.shell = second.shell)
    (name : String) : first.get? name = second.get? name := by
  change first.shell.get? name = second.shell.get? name
  rw [same]

theorem lookup_setAttribute_of_ne {name other value : String} (different : name ≠ other)
    (attributes : List (String × String)) :
    (setAttribute other value attributes).lookup name = attributes.lookup name := by
  induction attributes with
  | nil =>
      have absent : (name == other) = false := beq_false_of_ne different
      simp [setAttribute, List.lookup_cons, absent]
  | cons entry rest inductionHypothesis =>
      obtain ⟨present, current⟩ := entry
      by_cases same : present = other
      · subst same
        have absent : (name == present) = false := beq_false_of_ne different
        simp [setAttribute, List.lookup_cons, absent]
      · simp [setAttribute, same, List.lookup_cons, inductionHypothesis]

theorem lookup_setAttribute (name value : String) (attributes : List (String × String)) :
    (setAttribute name value attributes).lookup name = some value := by
  induction attributes with
  | nil => simp [setAttribute]
  | cons entry rest inductionHypothesis =>
      obtain ⟨other, current⟩ := entry
      by_cases same : other = name
      · simp [setAttribute, same]
      · have absent : (name == other) = false := beq_false_of_ne (Ne.symm same)
        simp [setAttribute, same, List.lookup_cons, absent, inductionHypothesis]

/-- A tooltip changes no other attribute. -/
theorem get?_hinted {name : String} (different : name ≠ "title") (hint : Option String)
    (element : Node) : (hinted hint element).get? name = element.get? name := by
  unfold hinted
  split
  · rfl
  · rfl
  · exact lookup_setAttribute_of_ne different element.attributes

/-! ### Elements of flows -/

/-- The element that an item stands for; a text stands for none. -/
def Item.node? : Item → Option Node
  | .text _ => none
  | .link address hint runs => some (linkNode address hint runs)
  | .anchor name => some (anchorNode name)
  | .image source hint => some (imageNode source hint)
  | .marker number => some (Pass.noteMarker number)

def Item.picked (test : Node → Bool) (item : Item) : List Node := item.node?.toList.filter test

/-- The elements of a block that pass a test, as its items tell them. -/
def Block.picked (test : Node → Bool) (block : Block) : List Node :=
  (match block with
    | .note footnote => [footnote.node, backNode footnote.number].filter test
    | _ => []) ++ block.items.flatMap (Item.picked test)

def Part.picked (test : Node → Bool) : Part → List Node
  | .rule => []
  | .closed part => part.blocks.flatMap (Block.picked test)

variable {test : Node → Bool} (selective : Selective test)
include selective

theorem pickedBelow_linkNode (address : String) (hint : Option String) (runs : List TextRun) :
    pickedBelow test (linkNode address hint runs) = [] := by
  rw [pickedBelow, List.flatMap_eq_nil_iff]
  intro child member
  exact selective.picked_of_lacks
    (((isAnchor_linkNode address hint runs).2 child member).lacks (by decide) fun _ formatting =>
      formatting)

omit selective in
theorem tail_of_node? {item : Item} {node : Node} (stands : item.node? = some node) :
    node.tail = none := by
  cases item with
  | text run => cases stands
  | link address hint runs =>
      obtain ⟨attributes, titled⟩ := hinted_eq hint (.new () "a" [("href", address)])
      cases stands
      rw [linkNode_eq_flow, tail_flow, titled]
      rfl
  | image source hint =>
      obtain ⟨attributes, titled⟩ := hinted_eq hint (.new () "img" [("src", source)])
      cases stands
      rw [imageNode, titled]
      rfl
  | anchor name | marker number =>
      cases stands
      rfl

theorem pickedBelow_of_node? {item : Item} {node : Node} (stands : item.node? = some node) :
    pickedBelow test node = [] := by
  cases item with
  | text run => cases stands
  | link address hint runs =>
      cases stands
      exact pickedBelow_linkNode selective address hint runs
  | image source hint =>
      obtain ⟨attributes, titled⟩ := hinted_eq hint (.new () "img" [("src", source)])
      cases stands
      rw [imageNode, titled]
      rfl
  | anchor name | marker number =>
      cases stands
      rfl

/-- The element of an item holds no other that is picked. -/
theorem picked_of_node? {item : Item} {node : Node} (stands : item.node? = some node) :
    Element.picked test node = item.picked test := by
  have untailed : node.detached = node := by
    have tail := tail_of_node? stands
    cases node
    cases tail
    rfl
  rw [picked_eq, pickedBelow_of_node? selective stands, Item.picked, stands, untailed]
  cases passes : test node <;> simp [passes]

theorem pickedBelow_put (item : Item) (holder : Node) :
    pickedBelow test (item.put holder) = pickedBelow test holder ++ item.picked test := by
  have appended {node : Node} (stands : item.node? = some node) :
      pickedBelow test (holder.appendChild node) =
        pickedBelow test holder ++ item.picked test := by
    rw [Element.appendChild, pickedBelow_append_children, List.flatMap_singleton,
      picked_of_node? selective stands]
  cases item with
  | text run =>
      rw [Item.put, selective.pickedBelow_appendRun]
      simp [Item.picked, Item.node?]
  | _ => exact appended rfl

theorem pickedBelow_flow (items : List Item) (holder : Node) :
    pickedBelow test (flow items holder) =
      pickedBelow test holder ++ items.flatMap (Item.picked test) := by
  induction items generalizing holder with
  | nil => simp
  | cons item rest inductionHypothesis =>
      rw [flow_cons, inductionHypothesis, pickedBelow_put selective, List.flatMap_cons,
        List.append_assoc]

/-! ### Elements of blocks and pages -/

theorem picked_paragraph (paragraph : Paragraph) :
    Element.picked test paragraph.node = paragraph.items.flatMap (Item.picked test) := by
  rw [picked_of_fails (selective.fails (tag_paragraph paragraph) (by decide)), Paragraph.node,
    pickedBelow_flow selective]
  simp [pickedBelow]

theorem flatMap_picked_paragraphs (paragraphs : List Paragraph) :
    (paragraphs.map Paragraph.node).flatMap (Element.picked test) =
      (paragraphs.flatMap Paragraph.items).flatMap (Item.picked test) := by
  simp [List.flatMap_map, List.flatMap_assoc, picked_paragraph selective]

theorem picked_cell (cell : Cell) :
    Element.picked test cell.node = cell.items.flatMap (Item.picked test) := by
  have other : (if cell.header then "th" else "td") ∉ ["a", "img", "aside"] := by
    cases cell.header <;> decide
  rw [picked_of_fails (selective.fails (tag_cell cell) other), Cell.node,
    pickedBelow_append_children, pickedBelow_flow selective,
    flatMap_picked_paragraphs selective]
  simp [pickedBelow, Table.newCell, Element.new, Cell.items]

theorem picked_row (row : List Cell) :
    Element.picked test (rowNode row) =
      (row.flatMap Cell.items).flatMap (Item.picked test) := by
  have tagged : (rowNode row).tag = "tr" := rfl
  rw [picked_of_fails (selective.fails tagged (by decide))]
  simp [pickedBelow, rowNode, List.flatMap_map, List.flatMap_assoc, picked_cell selective]

omit selective in
theorem picked_backNode (number : Nat) :
    Element.picked test (backNode number) = [backNode number].filter test := by
  have untailed : (backNode number).detached = backNode number := rfl
  have childless : pickedBelow test (backNode number) = [] := rfl
  rw [picked_eq, childless, untailed]
  cases passes : test (backNode number) <;> simp [passes]

/-- What is picked in the markup of a block is what its items tell. -/
theorem picked_block (block : Block) :
    Element.picked test block.node = block.picked test := by
  cases block with
  | paragraph single => exact picked_paragraph selective single
  | heading items =>
      have tagged : (flow items headingBase).tag = "h2" := tag_flow items headingBase
      rw [Block.node, picked_of_fails (selective.fails tagged (by decide)),
        pickedBelow_flow selective]
      rfl
  | grid table =>
      have tagged : table.node.tag = "table" := rfl
      rw [Block.node, picked_of_fails (selective.fails tagged (by decide))]
      simp [pickedBelow, Grid.node, List.flatMap_map, List.flatMap_assoc, picked_row selective,
        Block.picked, Block.items]
  | note footnote =>
      have inside : pickedBelow test footnote.node =
          [backNode footnote.number].filter test ++
            (footnote.paragraphs.flatMap Paragraph.items).flatMap (Item.picked test) := by
        rw [← flatMap_picked_paragraphs selective, ← picked_backNode]
        rfl
      have untailed : footnote.node.detached = footnote.node := rfl
      rw [Block.node, picked_eq, inside, untailed, Block.picked]
      cases passes : test footnote.node <;> simp [passes, Block.items]

theorem picked_part (part : Part) : Element.picked test part.node = part.picked test := by
  cases part with
  | rule =>
      have tagged : Part.rule.node.tag = "hr" := rfl
      rw [picked_of_fails (selective.fails tagged (by decide))]
      rfl
  | closed part =>
      rw [Part.node, picked_of_fails (selective.fails (tag_section part) (by decide)), pickedBelow,
        children_section, List.flatMap_map]
      simp [picked_block selective, Part.picked]

/-- What is picked in a page stands in the parts that are kept. -/
theorem picked_page (options : Options) (document : Document) (draft : Draft) :
    Element.picked test (page options document draft) =
      draft.kept.flatMap (Part.picked test) := by
  have head : Element.picked test (Page.head options.stylesheets document) = [] :=
    selective.picked_of_lacks (lacks_head (by decide) options.stylesheets document)
  have title : (titleHeading options document).flatMap (Element.picked test) = [] := by
    rw [List.flatMap_eq_nil_iff]
    exact fun child member => selective.picked_of_lacks
      (lacks_titleHeading (by decide) options document child member)
  have parts : Element.picked test (body options document draft) =
      draft.kept.flatMap (Part.picked test) := by
    rw [picked_of_fails (selective.fails (tag_body options document draft) (by decide)),
      pickedBelow, body, List.flatMap_append, title, List.flatMap_map]
    simp [picked_part selective]
  have tagged : (page options document draft).tag = "html" := rfl
  rw [picked_of_fails (selective.fails tagged (by decide)), pickedBelow, page, assemble]
  simp [head, parts]

end Draft

end Folio
