import Folio.Proofs.Events

/-!
# Links and images in a page

Every element of a page stands inside a table or outside.  Which links and images there
are on each side, and in which order, is known from the entries of the draft that the
page comes from.  No other element ever has a tooltip.
-/

namespace Folio

open Markup Render

namespace Markup.Element

mutual
/-- An element and all below it in document order, each with whether it stands inside a
table. -/
def placed (inTable : Bool) : Node → List (Bool × Node)
  | ⟨mark, tag, attributes, text, tail, children⟩ =>
      (inTable, ⟨mark, tag, attributes, text, tail, children⟩) ::
        placedAll (inTable || tag == "table") children

def placedAll (inTable : Bool) : List Node → List (Bool × Node)
  | [] => []
  | child :: rest => child.placed inTable ++ placedAll inTable rest
end

/-- An image, or a link: an element that leads somewhere and has no name, as anchors and
the elements of notes have. -/
def isPointer (element : Node) : Bool :=
  element.tag == "img" || element.tag == "a" && (element.get? "name").isNone

/-- The links and images of a tree that stand inside its tables, or outside. -/
def pointersOn (inTable : Bool) (element : Node) : List Node :=
  ((element.placed false).filter fun (inside, below) =>
    inside == inTable && below.isPointer).map Prod.snd

/-! ### Elements by the side they stand on -/

theorem placed_eq (inTable : Bool) (element : Node) :
    element.placed inTable =
      (inTable, element) ::
        element.children.flatMap (placed (inTable || element.tag == "table")) := by
  have all (side : Bool) (children : List Node) :
      placedAll side children = children.flatMap (placed side) := by
    induction children with
    | nil => rfl
    | cons child rest inductionHypothesis =>
        rw [placedAll, inductionHypothesis, List.flatMap_cons]
  cases element
  rw [placed, all]

/-- Without a table in it, a tree stands on one side as a whole. -/
theorem placed_of_lacks {element : Node} (lacks : Lacks ["table"] element) (inTable : Bool) :
    element.placed inTable = element.elements.map fun below => (inTable, below) := by
  induction lacks with
  | @intro element untagged below inductionHypothesis =>
      have noTable : (element.tag == "table") = false := by simpa [isTagged] using untagged
      rw [placed_eq, elements_eq, noTable, Bool.or_false, List.map_cons, List.map_flatMap]
      have children (nodes : List Node) (within : ∀ child ∈ nodes, child ∈ element.children) :
          nodes.flatMap (placed inTable) =
            nodes.flatMap fun child => child.elements.map fun below => (inTable, below) := by
        induction nodes with
        | nil => rfl
        | cons child rest restHypothesis =>
            rw [List.flatMap_cons, List.flatMap_cons,
              inductionHypothesis child (within child List.mem_cons_self),
              restHypothesis fun other member => within other (List.mem_cons_of_mem _ member)]
      rw [children _ fun _ member => member]

/-- The elements on one side that pass a test, without the texts that follow them, when
the tree itself stands inside a table or outside. -/
def pickedOn (test : Node → Bool) (inTable outer : Bool) (element : Node) : List Node :=
  ((element.placed outer).filter fun (inside, below) =>
    inside == inTable && test below).map fun (_, below) => below.detached

variable {test : Node → Bool} (inTable outer : Bool)

theorem pickedOn_of_lacks {element : Node} (lacks : Lacks ["table"] element) :
    pickedOn test inTable outer element = if outer = inTable then picked test element else [] := by
  rw [pickedOn, placed_of_lacks lacks, List.filter_map, List.map_map, picked]
  by_cases here : outer = inTable
  · simp [here, Function.comp_def]
  · simp [here, Function.comp_def]

/-- An element that is not picked itself is picked from in its children. -/
theorem pickedOn_of_fails {element : Node} (fails : test element = false) :
    pickedOn test inTable outer element =
      element.children.flatMap (pickedOn test inTable (outer || element.tag == "table")) := by
  rw [pickedOn, placed_eq]
  simp only [List.filter_cons, fails, Bool.and_false, Bool.false_eq_true, if_false,
    List.filter_flatMap, List.map_flatMap]
  rfl

theorem flatMap_pickedOn_of_lacks {children : List Node}
    (lacks : ∀ child ∈ children, Lacks ["table"] child) :
    children.flatMap (pickedOn test inTable outer) =
      if outer = inTable then children.flatMap (picked test) else [] := by
  induction children with
  | nil => simp
  | cons child rest inductionHypothesis =>
      rw [List.flatMap_cons, pickedOn_of_lacks inTable outer (lacks child List.mem_cons_self),
        inductionHypothesis fun other member => lacks other (List.mem_cons_of_mem _ member),
        List.flatMap_cons]
      split <;> rfl

end Markup.Element

namespace Draft

open Markup.Element

section

variable {test : Node → Bool} (selective : Selective test) (inTable : Bool)
include selective

theorem pickedOn_block (block : Block) :
    pickedOn test inTable false block.node =
      if block.kind.isGrid = inTable then block.picked test else [] := by
  have outside (lacks : Lacks ["table"] block.node) (other : block.kind.isGrid = false) :
      pickedOn test inTable false block.node =
        if block.kind.isGrid = inTable then block.picked test else [] := by
    rw [pickedOn_of_lacks inTable false lacks, picked_block selective, other]
  cases block with
  | paragraph single => exact outside (lacks_paragraph (by decide) single) rfl
  | heading items => exact outside (lacks_heading (by decide) items) rfl
  | note footnote => exact outside (lacks_note (by decide) footnote) rfl
  | grid table =>
      have tagged : table.node.tag = "table" := rfl
      have fails : test table.node = false := selective.fails tagged (by decide)
      have rows : ∀ child ∈ table.node.children, Lacks ["table"] child := by
        intro child member
        obtain ⟨row, _, rfl⟩ := List.mem_map.mp member
        exact lacks_row (by decide) row
      have whole := picked_block selective (.grid table)
      rw [Block.node, picked_of_fails fails, pickedBelow] at whole
      rw [Block.node, pickedOn_of_fails inTable false fails, ← whole, tagged]
      exact flatMap_pickedOn_of_lacks inTable true rows

theorem pickedOn_part (part : Part) :
    pickedOn test inTable false part.node =
      part.told fun block => if block.kind.isGrid = inTable then block.picked test else [] := by
  cases part with
  | rule =>
      have tagged : Part.rule.node.tag = "hr" := rfl
      rw [pickedOn_of_fails inTable false (selective.fails tagged (by decide))]
      rfl
  | closed part =>
      have fails := selective.fails (tag_section part) (by decide)
      rw [Part.node, pickedOn_of_fails inTable false fails, tag_section, children_section,
        List.flatMap_map]
      simp only [Part.told, ← pickedOn_block selective]
      rfl

/-- What is picked on one side of a page stands in the blocks of that side. -/
theorem pickedOn_page (options : Options) (document : Document) (draft : Draft) :
    pickedOn test inTable false (page options document draft) =
      draft.kept.flatMap (Part.told fun block =>
        if block.kind.isGrid = inTable then block.picked test else []) := by
  have nothing {nodes : List Node} (lacks : ∀ child ∈ nodes, Lacks ["table"] child)
      (unpicked : ∀ child ∈ nodes, Element.picked test child = []) :
      nodes.flatMap (pickedOn test inTable false) = [] := by
    rw [flatMap_pickedOn_of_lacks inTable false lacks, List.flatMap_eq_nil_iff.mpr unpicked,
      ite_self]
  have head : pickedOn test inTable false (Page.head options.stylesheets document) = [] := by
    rw [pickedOn_of_lacks inTable false (lacks_head (by decide) options.stylesheets document),
      selective.picked_of_lacks (lacks_head (by decide) options.stylesheets document), ite_self]
  have title : (titleHeading options document).flatMap (pickedOn test inTable false) = [] :=
    nothing (lacks_titleHeading (by decide) options document) fun child member =>
      selective.picked_of_lacks (lacks_titleHeading (by decide) options document child member)
  have parts : pickedOn test inTable false (body options document draft) =
      draft.kept.flatMap (Part.told fun block =>
        if block.kind.isGrid = inTable then block.picked test else []) := by
    have children : (body options document draft).children =
        titleHeading options document ++ draft.kept.map Part.node := rfl
    have told : (Part.told fun block =>
        if block.kind.isGrid = inTable then block.picked test else []) =
          fun part => pickedOn test inTable false part.node := by
      funext part
      exact (pickedOn_part selective inTable part).symm
    have fails := selective.fails (tag_body options document draft) (by decide)
    rw [pickedOn_of_fails inTable false fails, tag_body, children, List.flatMap_append,
      List.flatMap_map, told]
    exact congrArg (· ++ _) title
  have tagged : (page options document draft).tag = "html" := rfl
  have children : (page options document draft).children =
      [Page.head options.stylesheets document, body options document draft] := rfl
  rw [pickedOn_of_fails inTable false (selective.fails tagged (by decide)), tagged, children,
    ← parts]
  change pickedOn test inTable false _ ++ (pickedOn test inTable false _ ++ []) = _
  rw [head, List.nil_append, List.append_nil]

end

/-! ### Links and images of a draft -/

theorem selective_isPointer : Selective isPointer where
  tailless element tail := rfl
  tagged element passes := by
    simp only [isPointer, Bool.or_eq_true, Bool.and_eq_true, beq_iff_eq] at passes
    rcases passes with image | ⟨link, -⟩ <;> simp [*]

/-- The link or image that an entry stands for. -/
def Entry.pointers : Entry → List Node
  | .item (.link address hint runs) => [linkNode address hint runs]
  | .item (.image source hint) => [imageNode source hint]
  | _ => []

theorem isPointer_linkNode (address : String) (hint : Option String) (runs : List TextRun) :
    (linkNode address hint runs).isPointer = true := by
  have unnamed : (linkNode address hint runs).get? "name" = none := by
    rw [linkNode_eq_flow, get?_eq_of_shell (shell_flow _ _), get?_hinted (by decide)]
    rfl
  simp [isPointer, (isAnchor_linkNode address hint runs).1, unnamed]

theorem picked_isPointer_item (item : Item) :
    item.picked isPointer = (Entry.item item).pointers := by
  cases item with
  | link address hint runs =>
      simp [Item.picked, Item.node?, isPointer_linkNode, Entry.pointers]
  | image source hint =>
      simp [Item.picked, Item.node?, isPointer, (isImage_imageNode source hint).1, Entry.pointers]
  | text run | anchor name | marker number => rfl

theorem picked_isPointer (block : Block) :
    block.picked isPointer = block.entries.flatMap Entry.pointers := by
  have items (held : List Item) :
      held.flatMap (Item.picked isPointer) = (held.map Entry.item).flatMap Entry.pointers := by
    simp only [List.flatMap_map, ← picked_isPointer_item]
  cases block with
  | note footnote => exact items (footnote.paragraphs.flatMap Paragraph.items)
  | _ => exact items _

/-- The links and images of a page on one side, without the texts that follow them, are
those of the entries there. -/
theorem pointersOn_page (options : Options) (document : Document) (draft : Draft)
    (inTable : Bool) :
    ((page options document draft).pointersOn inTable).map Element.detached =
      (draft.entriesOn inTable).flatMap Entry.pointers := by
  have told : (Part.told fun block =>
      if block.kind.isGrid = inTable then block.picked isPointer else []) =
        fun part => (part.told (Block.entriesOn inTable)).flatMap Entry.pointers := by
    funext part
    cases part with
    | rule => rfl
    | closed part =>
        simp only [Part.told, List.flatMap_assoc]
        refine congrArg (List.flatMap · part.blocks) (funext fun block => ?_)
        rw [picked_isPointer, Block.entriesOn]
        split <;> rfl
  have whole := pickedOn_page selective_isPointer inTable options document draft
  rw [pickedOn, told, ← List.flatMap_assoc, flatMap_entriesOn_kept] at whole
  rw [← whole, pointersOn, List.map_map]
  rfl

/-! ### Tooltips -/

/-- Nothing in a tree has a tooltip but links and images. -/
def Discreet (element : Node) : Prop :=
  ∀ below ∈ element.elements, (below.get? "title").isSome = true → below.isPointer = true

theorem discreet_iff {element : Node} :
    Discreet element ↔
      ((element.get? "title").isSome = true → element.isPointer = true) ∧
        ∀ child ∈ element.children, Discreet child := by
  simp only [Discreet, elements_eq element, List.forall_mem_cons, List.mem_flatMap]
  constructor
  · rintro ⟨top, below⟩
    exact ⟨top, fun child member found inChild => below found ⟨child, member, inChild⟩⟩
  · rintro ⟨top, below⟩
    exact ⟨top, fun found ⟨child, member, inChild⟩ => below child member found inChild⟩

theorem Discreet.of_untitled {element : Node} (untitled : element.get? "title" = none)
    (below : ∀ child ∈ element.children, Discreet child) : Discreet element :=
  discreet_iff.mpr ⟨by simp [untitled], below⟩

theorem Discreet.withTail {element : Node} (discreet : Discreet element)
    (tail : Option String) : Discreet (element.withTail tail) := by
  obtain ⟨top, below⟩ := discreet_iff.mp discreet
  exact discreet_iff.mpr ⟨top, below⟩

theorem untitled_foldl_addClass (classes : List String) {element : Node}
    (untitled : element.get? "title" = none) :
    (classes.foldl Element.addClass element).get? "title" = none := by
  induction classes generalizing element with
  | nil => exact untitled
  | cons name rest inductionHypothesis =>
      apply inductionHypothesis
      exact (lookup_setAttribute_of_ne (by decide) element.attributes).trans untitled

theorem untitled_aligned (alignment : Alignment) {element : Node}
    (untitled : element.get? "title" = none) :
    (aligned alignment element).get? "title" = none := by
  unfold aligned
  split
  · exact untitled
  · exact (lookup_setAttribute_of_ne (by decide) element.attributes).trans untitled

theorem untitled_wrapper (style : RunStyle) :
    ∀ wrapper ∈ wrappers style, wrapper.get? "title" = none :=
  forall_wrappers (fun _ _ => rfl) (fun classes => untitled_foldl_addClass classes rfl) style

theorem discreet_children_appendPieces {holder : Node}
    (below : ∀ child ∈ holder.children, Discreet child) (pieces : List String) :
    ∀ child ∈ (appendPieces holder pieces).children, Discreet child := by
  refine forall_children_appendPieces (fun _ tail discreet => discreet.withTail tail)
    (fun piece => ?_) below pieces
  exact .of_untitled rfl (by simp [lineBreak, Element.new])

theorem shell_appendWrapped (pieces : List String) (inner : List Node) (holder : Node) :
    (appendWrapped pieces inner holder).shell = holder.shell := by
  cases inner with
  | nil => exact shell_appendPieces holder pieces
  | cons wrapper rest => rfl

theorem discreet_children_appendWrapped {inner : List Node}
    (untitled : ∀ wrapper ∈ inner, wrapper.get? "title" = none ∧ wrapper.children = [])
    {holder : Node} (below : ∀ child ∈ holder.children, Discreet child) (pieces : List String) :
    ∀ child ∈ (appendWrapped pieces inner holder).children, Discreet child := by
  induction inner generalizing holder with
  | nil => exact discreet_children_appendPieces below pieces
  | cons wrapper rest inductionHypothesis =>
      obtain ⟨wrapperUntitled, childless⟩ := untitled wrapper List.mem_cons_self
      have inside : ∀ child ∈ (appendWrapped pieces rest wrapper).children, Discreet child :=
        inductionHypothesis (fun other member => untitled other (List.mem_cons_of_mem _ member))
          (by simp [childless])
      intro child member
      rcases List.mem_append.mp member with before | added
      · exact below child before
      · rw [List.mem_singleton.mp added]
        refine .of_untitled ?_ inside
        rw [get?_eq_of_shell (shell_appendWrapped _ _ _), wrapperUntitled]

theorem discreet_children_appendRun {holder : Node}
    (below : ∀ child ∈ holder.children, Discreet child) (run : TextRun) :
    ∀ child ∈ (appendRun run holder).children, Discreet child :=
  discreet_children_appendWrapped
    (fun wrapper member =>
      ⟨untitled_wrapper run.style wrapper member, wrappers_childless run.style wrapper member⟩)
    below _

theorem discreet_children_flow_text (runs : List TextRun) {holder : Node}
    (below : ∀ child ∈ holder.children, Discreet child) :
    ∀ child ∈ (flow (runs.map .text) holder).children, Discreet child := by
  induction runs generalizing holder with
  | nil => exact below
  | cons run rest inductionHypothesis =>
      exact inductionHypothesis (discreet_children_appendRun below run)

/-- The element of an item is discreet, with a tooltip or without. -/
theorem discreet_of_node? {item : Item} {node : Node} (stands : item.node? = some node) :
    Discreet node := by
  cases item with
  | text run => cases stands
  | link address hint runs =>
      cases stands
      refine discreet_iff.mpr ⟨fun _ => isPointer_linkNode address hint runs, ?_⟩
      obtain ⟨attributes, titled⟩ := hinted_eq hint (.new () "a" [("href", address)])
      rw [linkNode_eq_flow, titled]
      exact discreet_children_flow_text runs (by simp [Element.new])
  | image source hint =>
      cases stands
      obtain ⟨tagged, -, childless⟩ := isImage_imageNode source hint
      exact discreet_iff.mpr ⟨fun _ => by simp [isPointer, tagged], by simp [childless]⟩
  | anchor name =>
      cases stands
      exact .of_untitled rfl (by simp [anchorNode, Element.new])
  | marker number =>
      cases stands
      exact .of_untitled rfl
        (by simp [Pass.noteMarker, Element.new, Element.addClass, Element.set])

theorem discreet_children_flow (items : List Item) {holder : Node}
    (below : ∀ child ∈ holder.children, Discreet child) :
    ∀ child ∈ (flow items holder).children, Discreet child := by
  induction items generalizing holder with
  | nil => exact below
  | cons item rest inductionHypothesis =>
      have appended {node : Node} (stands : item.node? = some node) :
          ∀ child ∈ (holder.appendChild node).children, Discreet child :=
        List.forall_mem_append.mpr
          ⟨below, List.forall_mem_singleton.mpr (discreet_of_node? stands)⟩
      apply inductionHypothesis
      cases item with
      | text run => exact discreet_children_appendRun below run
      | _ => exact appended rfl

theorem forall_discreet_map {Thing : Type} {node : Thing → Node}
    (discreet : ∀ thing, Discreet (node thing)) (things : List Thing) :
    ∀ child ∈ things.map node, Discreet child := by
  intro child member
  obtain ⟨thing, _, rfl⟩ := List.mem_map.mp member
  exact discreet thing

theorem discreet_flow (items : List Item) {holder : Node}
    (untitled : holder.get? "title" = none) (childless : holder.children = []) :
    Discreet (flow items holder) := by
  refine .of_untitled ?_ (discreet_children_flow items (by simp [childless]))
  rw [get?_eq_of_shell (shell_flow items holder), untitled]

theorem discreet_paragraph (paragraph : Paragraph) : Discreet paragraph.node :=
  discreet_flow paragraph.items (untitled_aligned paragraph.alignment rfl)
    (children_paragraphBase paragraph.alignment)

theorem discreet_cell (cell : Cell) : Discreet cell.node := by
  refine .of_untitled ?_ (List.forall_mem_append.mpr ⟨?_, ?_⟩)
  · change (flow cell.lead (Table.newCell cell.header)).get? "title" = none
    rw [get?_eq_of_shell (shell_flow _ _)]
    rfl
  · exact discreet_children_flow cell.lead (by simp [Table.newCell, Element.new])
  · exact forall_discreet_map discreet_paragraph cell.paragraphs

theorem discreet_block (block : Block) : Discreet block.node := by
  cases block with
  | paragraph single => exact discreet_paragraph single
  | heading items => exact discreet_flow items rfl rfl
  | grid table =>
      have row (cells : List Cell) : Discreet (rowNode cells) :=
        .of_untitled rfl (forall_discreet_map discreet_cell cells)
      exact .of_untitled rfl (forall_discreet_map row table.rows)
  | note footnote =>
      have back : Discreet (backNode footnote.number) :=
        .of_untitled rfl (by simp [backNode, Element.new, Element.addClass, Element.set])
      exact .of_untitled rfl (List.forall_mem_cons.mpr
        ⟨back, forall_discreet_map discreet_paragraph footnote.paragraphs⟩)

theorem discreet_part (part : Part) : Discreet part.node := by
  cases part with
  | rule => exact .of_untitled rfl (by simp [Part.node, Element.new])
  | closed part =>
      exact .of_untitled (untitled_aligned part.alignment rfl)
        (forall_discreet_map discreet_block part.blocks)

/-- Nothing in a page has a tooltip but links and images. -/
theorem discreet_page (options : Options) (document : Document) (draft : Draft) :
    Discreet (page options document draft) := by
  have bare {element : Node} (untitled : element.get? "title" = none)
      (childless : element.children = []) : Discreet element :=
    .of_untitled untitled (by simp [childless])
  have head : Discreet (Page.head options.stylesheets document) :=
    .of_untitled rfl (forall_head (bare rfl rfl) (bare rfl rfl) (fun _ => bare rfl rfl)
      (fun _ => bare rfl rfl) (fun _ _ => bare rfl rfl) options.stylesheets document)
  have title : ∀ child ∈ titleHeading options document, Discreet child := by
    unfold titleHeading
    split
    · exact List.forall_mem_singleton.mpr (bare rfl rfl)
    · exact List.forall_mem_nil _
  have body : Discreet (body options document draft) :=
    .of_untitled (untitled_foldl_addClass options.bodyClasses rfl)
      (List.forall_mem_append.mpr ⟨title, forall_discreet_map discreet_part draft.kept⟩)
  exact .of_untitled rfl (List.forall_mem_cons.mpr ⟨head, List.forall_mem_singleton.mpr body⟩)

end Draft

end Folio
