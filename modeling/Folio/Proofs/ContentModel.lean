import Folio.Proofs.Filling
import Folio.Proofs.Pruning

/-!
# The content model

Every element of a rendered page has a role, which says what it may hold and
where text may stand in it.  The roles are given from the inside out, from what
stands in a flow up to the page; an element is in its role only if all its
children are in theirs, so a page in its role leaves no element out.
-/

namespace Folio

open Markup Render Draft

/-- An element with a tag in which no text stands, neither before its children
nor between or after them. -/
structure IsBare (tag : String) (element : Node) : Prop where
  tagged : element.tag = tag
  textless : element.text = none
  tailless : ∀ child ∈ element.children, child.tail = none

/-- An element with a tag that holds inline content. -/
structure IsFlow (tag : String) (element : Node) : Prop where
  tagged : element.tag = tag
  inline : ∀ child ∈ element.children, IsInline child

/-- A cell holds inline content, then paragraphs, and no text after a
paragraph. -/
structure IsCell (element : Node) : Prop where
  tagged : element.tag = "th" ∨ element.tag = "td"
  content :
    ∃ lead paragraphs, element.children = lead ++ paragraphs ∧
      (∀ child ∈ lead, IsInline child) ∧
      ∀ child ∈ paragraphs, IsFlow "p" child ∧ child.tail = none

structure IsRow (element : Node) : Prop where
  bare : IsBare "tr" element
  nonempty : element.children ≠ []
  cells : ∀ child ∈ element.children, IsCell child

structure IsTable (element : Node) : Prop where
  bare : IsBare "table" element
  rows : ∀ child ∈ element.children, IsRow child

/-- The way back from a note is marked by its class and holds nothing. -/
structure IsBackAnchor (element : Node) : Prop where
  tagged : element.tag = "a"
  classed : "from-note" ∈ element.classes
  vacant : element.text = none ∧ element.children = []

/-- A note begins with the way back and goes on with paragraphs. -/
structure IsNote (element : Node) : Prop where
  bare : IsBare "aside" element
  content :
    ∃ back paragraphs, element.children = back :: paragraphs ∧ IsBackAnchor back ∧
      ∀ child ∈ paragraphs, IsFlow "p" child

def IsBlock (element : Node) : Prop :=
  IsFlow "p" element ∨ IsFlow "h2" element ∨ IsTable element ∨ IsNote element

structure IsSection (element : Node) : Prop where
  bare : IsBare "section" element
  nonempty : element.children ≠ []
  blocks : ∀ child ∈ element.children, IsBlock child

/-- A rule between sections holds nothing. -/
structure IsRule (element : Node) : Prop where
  tagged : element.tag = "hr"
  textless : element.text = none
  childless : element.children = []

/-- The heading of a page holds only text. -/
structure IsTitle (element : Node) : Prop where
  tagged : element.tag = "h1"
  childless : element.children = []

/-- A body begins with a heading, unless it has none, and goes on with sections
and rules. -/
structure IsBody (element : Node) : Prop where
  bare : IsBare "body" element
  content :
    ∃ titles parts, element.children = titles ++ parts ∧ titles.length ≤ 1 ∧
      (∀ child ∈ titles, IsTitle child) ∧ ∀ child ∈ parts, IsSection child ∨ IsRule child

structure IsHead (element : Node) : Prop where
  bare : IsBare "head" element
  entries : ∀ child ∈ element.children, IsHeadEntry child

structure IsPage (element : Node) : Prop where
  bare : IsBare "html" element
  content : ∃ head body, element.children = [head, body] ∧ IsHead head ∧ IsBody body

namespace Draft

/-! ### Blocks in their roles -/

theorem forall_tail_map {Thing : Type} {node : Thing → Node}
    (untailed : ∀ thing, (node thing).tail = none) (things : List Thing) :
    ∀ child ∈ things.map node, child.tail = none := by
  intro child member
  obtain ⟨thing, -, rfl⟩ := List.mem_map.mp member
  exact untailed thing

theorem isFlow_paragraph (paragraph : Paragraph) : IsFlow "p" paragraph.node where
  tagged := tag_paragraph paragraph
  inline := isInline_flow (children_paragraphBase paragraph.alignment) paragraph.items

theorem isFlow_paragraphs (paragraphs : List Paragraph) :
    ∀ child ∈ paragraphs.map Paragraph.node, IsFlow "p" child := by
  intro child member
  obtain ⟨paragraph, -, rfl⟩ := List.mem_map.mp member
  exact isFlow_paragraph paragraph

theorem isFlow_heading (items : List Item) : IsFlow "h2" (flow items headingBase) where
  tagged := tag_flow items headingBase
  inline := isInline_flow rfl items

theorem isCell_node (cell : Cell) : IsCell cell.node where
  tagged := by cases shown : cell.header <;> simp [shown]
  content :=
    ⟨(flow cell.lead (Table.newCell cell.header)).children, cell.paragraphs.map Paragraph.node,
      rfl, isInline_flow rfl cell.lead, fun child member =>
        ⟨isFlow_paragraphs cell.paragraphs child member,
          forall_tail_map tail_paragraph cell.paragraphs child member⟩⟩

theorem isRow_node {row : List Cell} (nonempty : row ≠ []) : IsRow (rowNode row) where
  bare := ⟨rfl, rfl, forall_tail_map tail_cell row⟩
  nonempty := by simpa [rowNode] using nonempty
  cells child member := by
    obtain ⟨cell, -, rfl⟩ := List.mem_map.mp member
    exact isCell_node cell

theorem isTable_node {table : Grid} (laid : table.Laid) : IsTable table.node where
  bare := ⟨rfl, rfl, forall_tail_map (fun _ => rfl) table.rows⟩
  rows child member := by
    obtain ⟨row, isRow, rfl⟩ := List.mem_map.mp member
    exact isRow_node (laid.row_ne_nil isRow)

theorem isBackAnchor_backNode (number : Nat) : IsBackAnchor (backNode number) where
  tagged := rfl
  classed := by
    have classAttribute : (backNode number).get? "class" = some "from-note" := rfl
    rw [Element.classes, classAttribute]
    decide
  vacant := ⟨rfl, rfl⟩

theorem isNote_node (note : Footnote) : IsNote note.node where
  bare := by
    refine ⟨rfl, rfl, fun child member => ?_⟩
    rcases List.mem_cons.mp member with rfl | isParagraph
    · rfl
    · exact forall_tail_map tail_paragraph note.paragraphs child isParagraph
  content :=
    ⟨backNode note.number, note.paragraphs.map Paragraph.node, rfl,
      isBackAnchor_backNode note.number, isFlow_paragraphs note.paragraphs⟩

theorem isBlock_node {block : Block} (laid : block.Laid) : IsBlock block.node := by
  cases block with
  | paragraph single => exact .inl (isFlow_paragraph single)
  | heading items => exact .inr (.inl (isFlow_heading items))
  | grid table => exact .inr (.inr (.inl (isTable_node laid)))
  | note footnote => exact .inr (.inr (.inr (isNote_node footnote)))

/-! ### The page in its role -/

theorem isSection_node {part : Section} (nonempty : part.isVacant = false)
    (laid : ∀ block ∈ part.blocks, block.Laid) : IsSection part.node where
  bare := ⟨tag_section part, text_section part, forall_tail_map tail_block part.blocks⟩
  nonempty := by simpa [Section.isVacant] using nonempty
  blocks child member := by
    obtain ⟨block, isBlock, rfl⟩ := List.mem_map.mp member
    exact isBlock_node (laid block isBlock)

/-- Pruning takes no cell out of a row and no row out of a table. -/
theorem shape_pruned (block : Block) : block.pruned.shape = block.shape := by
  cases block with
  | grid table => simp [Block.pruned, Grid.pruned, Block.shape, Function.comp_def]
  | _ => rfl

theorem laid_pruned {part : Section} (laid : ∀ block ∈ part.blocks, block.Laid) :
    ∀ block ∈ part.pruned.blocks, block.Laid := by
  intro block member
  obtain ⟨before, isBefore, rfl⟩ := List.mem_map.mp (List.mem_filter.mp member).1
  exact laid_of_shape (shape_pruned before) (laid before isBefore)

theorem forall_kept {draft : Draft} (laid : draft.Everywhere Block.Laid) :
    ∀ child ∈ draft.kept.map Part.node, IsSection child ∨ IsRule child := by
  intro child member
  obtain ⟨left, isLeft, rfl⟩ := List.mem_map.mp member
  obtain ⟨isPruned, occupied⟩ := List.mem_filter.mp isLeft
  obtain ⟨part, isPart, rfl⟩ := List.mem_map.mp isPruned
  cases part with
  | rule => exact .inr ⟨rfl, rfl, rfl⟩
  | closed part =>
      refine .inl (isSection_node ?_ (laid_pruned (laid.closing part isPart)))
      simpa [Part.pruned, Part.isVacant] using occupied

theorem forall_titleHeading (options : Options) (document : Document) :
    ∀ child ∈ titleHeading options document, IsTitle child ∧ child.tail = none := by
  intro child member
  unfold titleHeading at member
  split at member
  · rw [List.mem_singleton.mp member]
    exact ⟨⟨rfl, rfl⟩, rfl⟩
  · cases member

theorem length_titleHeading (options : Options) (document : Document) :
    (titleHeading options document).length ≤ 1 := by
  unfold titleHeading
  split
  · exact Nat.le_refl 1
  · exact Nat.zero_le 1

theorem isBody_body (options : Options) (document : Document) {draft : Draft}
    (laid : draft.Everywhere Block.Laid) : IsBody (body options document draft) where
  bare := by
    refine ⟨tag_body options document draft, text_body options document draft, ?_⟩
    intro child member
    rcases List.mem_append.mp member with title | part
    · exact (forall_titleHeading options document child title).2
    · exact forall_tail_map tail_part draft.kept child part
  content :=
    ⟨titleHeading options document, draft.kept.map Part.node, rfl,
      length_titleHeading options document,
      fun child member => (forall_titleHeading options document child member).1,
      forall_kept laid⟩

theorem isHead_head (stylesheets : List String) (document : Document) :
    IsHead (Page.head stylesheets document) where
  bare := ⟨rfl, rfl, fun child member => (isHeadEntry_head stylesheets document child member).2.1⟩
  entries := isHeadEntry_head stylesheets document

theorem isPage_page (options : Options) (document : Document) {draft : Draft}
    (laid : draft.Everywhere Block.Laid) : IsPage (page options document draft) where
  bare := by
    refine ⟨rfl, rfl, fun child member => ?_⟩
    simp only [page, assemble, List.mem_cons, List.not_mem_nil, or_false] at member
    rcases member with rfl | rfl
    · rfl
    · exact tail_body options document draft
  content :=
    ⟨Page.head options.stylesheets document, body options document draft, rfl,
      isHead_head options.stylesheets document, isBody_body options document laid⟩

end Draft

/-- Every rendered page has the content model of the output. -/
theorem renderTree_isPage {options : Options} {document : Document} {page : Node}
    (rendered : renderTree options document = .ok page) : IsPage page := by
  obtain ⟨draft, ran, rfl⟩ := Draft.renderTree_ok rendered
  exact Draft.isPage_page options document (Draft.laid_of_run ran)

/-- A titled document: a heading and an empty paragraph, then a rule and a table
that has an image, a paragraph and the reference to a note in its cell. -/
def illustrated : Document where
  lines :=
    [.directive { Directive.plain .destination with target := .known .head },
      .run ⟨"a", { RunStyle.plain with italic := true }, false⟩,
      .directive (Directive.plain .newParagraph),
      .directive { Directive.plain .newSection with breakBefore := true },
      .directive { Directive.plain .table with content := .number 2 },
      .directive { Directive.plain .destination with target := .known .cell },
      .directive { Directive.plain .image with content := .text "i" },
      .directive (Directive.plain .newParagraph),
      .run ⟨"b", .plain, false⟩,
      .directive { Directive.plain .destination with target := .known .note },
      .run ⟨"c\nd", .plain, false⟩]
  metadata := [("title", ["t"])]
  showsMetadata := true

theorem renderTree_isPage_illustrated :
    ∃ page, renderTree { Options.standard with titleHeading := true } illustrated = .ok page ∧
      IsPage page := by
  obtain ⟨page, rendered⟩ :
      ∃ page, renderTree { Options.standard with titleHeading := true } illustrated =
        .ok page := by
    rw [Draft.renderTree_eq_page]
    exact ⟨_, rfl⟩
  exact ⟨page, rendered, renderTree_isPage rendered⟩

end Folio
