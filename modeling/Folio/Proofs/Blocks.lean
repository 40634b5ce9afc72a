import Folio.Proofs.Inline

/-!
# Blocks

A section is a list of blocks: paragraphs, headings, tables and notes.  This
file gives each of them as a value that holds exactly what lines can put into
it, and the markup that stands for the value.  Rows of a table are kept as they
were filled, so the markup of a table says where each cell stands.
-/

namespace Folio.Draft

open Markup Render

/-- A flow of its own, with an alignment. -/
structure Paragraph where
  alignment : Alignment
  items : List Item
  deriving DecidableEq

structure Cell where
  header : Bool
  lead : List Item
  paragraphs : List Paragraph
  deriving DecidableEq

structure Grid where
  columns : Nat
  rows : List (List Cell)
  deriving DecidableEq

structure Footnote where
  number : Nat
  paragraphs : List Paragraph
  deriving DecidableEq

/-- What a section is made of. -/
inductive Block where
  | paragraph (single : Paragraph)
  | heading (items : List Item)
  | grid (table : Grid)
  | note (footnote : Footnote)
  deriving DecidableEq

structure Section where
  alignment : Alignment
  blocks : List Block
  deriving DecidableEq

/-! ### The markup of blocks -/

def paragraphBase (alignment : Alignment) : Node := aligned alignment (.new () "p" [])

def headingBase : Node := .new () "h2" []

def Paragraph.node (paragraph : Paragraph) : Node :=
  flow paragraph.items (paragraphBase paragraph.alignment)

def Cell.node (cell : Cell) : Node :=
  { flow cell.lead (Table.newCell cell.header) with
    children :=
      (flow cell.lead (Table.newCell cell.header)).children ++
        cell.paragraphs.map Paragraph.node }

def rowNode (row : List Cell) : Node :=
  { Element.new () "tr" [] with children := row.map Cell.node }

def Grid.node (grid : Grid) : Node :=
  { Element.new () "table" [] with children := grid.rows.map rowNode }

/-- The way back from a note to its reference. -/
def backNode (number : Nat) : Node :=
  (Element.new () "a"
    [("name", s!"note-{number}"), ("href", s!"#note-return-{number}")]).addClass "from-note"

def Footnote.node (note : Footnote) : Node :=
  { Element.new () "aside" [] with
    children := backNode note.number :: note.paragraphs.map Paragraph.node }

def Block.node : Block → Node
  | .paragraph single => single.node
  | .heading items => flow items headingBase
  | .grid table => table.node
  | .note footnote => footnote.node

def Section.node (part : Section) : Node :=
  { aligned part.alignment emptySection with children := part.blocks.map Block.node }

def Block.tag : Block → String
  | .paragraph _ => "p"
  | .heading _ => "h2"
  | .grid _ => "table"
  | .note _ => "aside"

/-! ### Shapes -/

/-- An alignment is shown by a class and leaves the rest as it is. -/
theorem aligned_eq (alignment : Alignment) (element : Node) :
    ∃ attributes, aligned alignment element = { element with attributes := attributes } := by
  unfold aligned
  split
  · exact ⟨element.attributes, by cases element; rfl⟩
  · exact ⟨_, rfl⟩

theorem paragraphBase_eq (alignment : Alignment) :
    ∃ attributes, paragraphBase alignment = .new () "p" attributes := by
  obtain ⟨attributes, same⟩ := aligned_eq alignment (.new () "p" [])
  exact ⟨attributes, same⟩

@[simp]
theorem children_paragraphBase (alignment : Alignment) :
    (paragraphBase alignment).children = [] := by
  obtain ⟨attributes, same⟩ := paragraphBase_eq alignment
  rw [same]
  rfl

@[simp]
theorem text_paragraphBase (alignment : Alignment) : (paragraphBase alignment).text = none := by
  obtain ⟨attributes, same⟩ := paragraphBase_eq alignment
  rw [same]
  rfl

@[simp]
theorem tag_paragraph (paragraph : Paragraph) : paragraph.node.tag = "p" := by
  obtain ⟨attributes, same⟩ := paragraphBase_eq paragraph.alignment
  rw [Paragraph.node, tag_flow, same]
  rfl

@[simp]
theorem tail_paragraph (paragraph : Paragraph) : paragraph.node.tail = none := by
  obtain ⟨attributes, same⟩ := paragraphBase_eq paragraph.alignment
  rw [Paragraph.node, tail_flow, same]
  rfl

@[simp]
theorem tag_cell (cell : Cell) : cell.node.tag = if cell.header then "th" else "td" := by
  simp [Cell.node, Table.newCell, Element.new]

@[simp]
theorem tail_cell (cell : Cell) : cell.node.tail = none := by
  simp [Cell.node, Table.newCell, Element.new]

@[simp]
theorem tag_block (block : Block) : block.node.tag = block.tag := by
  cases block with
  | paragraph paragraph => exact tag_paragraph paragraph
  | heading items => exact tag_flow items headingBase
  | grid grid => rfl
  | note note => rfl

@[simp]
theorem tail_block (block : Block) : block.node.tail = none := by
  cases block with
  | paragraph paragraph => exact tail_paragraph paragraph
  | heading items => exact tail_flow items headingBase
  | grid grid => rfl
  | note note => rfl

theorem sectionNode_eq (part : Section) :
    ∃ attributes, part.node =
      { Element.new () "section" attributes with children := part.blocks.map Block.node } := by
  obtain ⟨attributes, same⟩ := aligned_eq part.alignment emptySection
  exact ⟨attributes, by rw [Section.node, same]; rfl⟩

@[simp]
theorem tag_section (part : Section) : part.node.tag = "section" := by
  obtain ⟨attributes, same⟩ := sectionNode_eq part
  rw [same]
  rfl

@[simp]
theorem tail_section (part : Section) : part.node.tail = none := by
  obtain ⟨attributes, same⟩ := sectionNode_eq part
  rw [same]
  rfl

@[simp]
theorem text_section (part : Section) : part.node.text = none := by
  obtain ⟨attributes, same⟩ := sectionNode_eq part
  rw [same]
  rfl

@[simp]
theorem children_section (part : Section) :
    part.node.children = part.blocks.map Block.node := rfl

/-! ### Inline content of flows on their own -/

theorem isInline_flow {holder : Node} (empty : holder.children = []) (items : List Item) :
    ∀ child ∈ (flow items holder).children, IsInline child :=
  forall_children_flow (by simp [empty]) items

theorem lacks_flow {tags : List String} (avoids : ∀ tag ∈ inlineTags, tag ∉ tags)
    {holder : Node} (empty : holder.children = []) (untagged : holder.isTagged tags = false)
    (items : List Item) : Element.Lacks tags (flow items holder) := by
  refine .intro ?_ fun child member => (isInline_flow empty items child member).lacks avoids
  simpa [Element.isTagged] using untagged

theorem lacks_paragraph {tags : List String} (avoids : ∀ tag ∈ "p" :: inlineTags, tag ∉ tags)
    (paragraph : Paragraph) : Element.Lacks tags paragraph.node := by
  refine lacks_flow (fun tag member => avoids tag (List.mem_cons_of_mem _ member))
    (children_paragraphBase _) ?_ _
  have absent : "p" ∉ tags := avoids "p" List.mem_cons_self
  have tagged : (paragraphBase paragraph.alignment).tag = "p" :=
    (tag_flow paragraph.items _).symm.trans (tag_paragraph paragraph)
  simpa [Element.isTagged, tagged] using absent

theorem lacks_heading {tags : List String} (avoids : ∀ tag ∈ "h2" :: inlineTags, tag ∉ tags)
    (items : List Item) : Element.Lacks tags (flow items headingBase) := by
  refine lacks_flow (fun tag member => avoids tag (List.mem_cons_of_mem _ member)) rfl ?_ _
  have absent : "h2" ∉ tags := avoids "h2" List.mem_cons_self
  simpa [Element.isTagged, headingBase, Element.new] using absent

theorem lacks_below_cell {tags : List String}
    (avoids : ∀ tag ∈ "p" :: inlineTags, tag ∉ tags) (cell : Cell) :
    ∀ child ∈ cell.node.children, Element.Lacks tags child := by
  intro child member
  rcases List.mem_append.mp member with inLead | inParagraphs
  · exact (isInline_flow rfl cell.lead child inLead).lacks
      fun tag inline => avoids tag (List.mem_cons_of_mem _ inline)
  · obtain ⟨paragraph, _, rfl⟩ := List.mem_map.mp inParagraphs
    exact lacks_paragraph avoids paragraph

theorem lacks_cell {tags : List String}
    (avoids : ∀ tag ∈ "th" :: "td" :: "p" :: inlineTags, tag ∉ tags) (cell : Cell) :
    Element.Lacks tags cell.node := by
  refine .intro ?_ (lacks_below_cell (fun tag member =>
    avoids tag (List.mem_cons_of_mem _ (List.mem_cons_of_mem _ member))) cell)
  have noTh : "th" ∉ tags := avoids "th" (by simp)
  have noTd : "td" ∉ tags := avoids "td" (by simp)
  cases shown : cell.header <;> simpa [Element.isTagged, shown] using by assumption

theorem lacks_row {tags : List String}
    (avoids : ∀ tag ∈ "tr" :: "th" :: "td" :: "p" :: inlineTags, tag ∉ tags)
    (row : List Cell) : Element.Lacks tags (rowNode row) := by
  have noRow : "tr" ∉ tags := avoids "tr" List.mem_cons_self
  refine .intro (by simpa [Element.isTagged, rowNode, Element.new] using noRow) ?_
  intro child member
  obtain ⟨cell, _, rfl⟩ := List.mem_map.mp member
  exact lacks_cell (fun tag inCell => avoids tag (List.mem_cons_of_mem _ inCell)) cell

theorem lacks_grid {tags : List String}
    (avoids : ∀ tag ∈ "table" :: "tr" :: "th" :: "td" :: "p" :: inlineTags, tag ∉ tags)
    (grid : Grid) : Element.Lacks tags grid.node := by
  have noTable : "table" ∉ tags := avoids "table" List.mem_cons_self
  refine .intro (by simpa [Element.isTagged, Grid.node, Element.new] using noTable) ?_
  intro child member
  obtain ⟨row, _, rfl⟩ := List.mem_map.mp member
  exact lacks_row (fun tag inRow => avoids tag (List.mem_cons_of_mem _ inRow)) row

theorem isAnchor_backNode (number : Nat) : IsAnchor (backNode number) :=
  ⟨rfl, by simp [backNode, Element.new, Element.addClass, Element.set]⟩

theorem lacks_below_note {tags : List String}
    (avoids : ∀ tag ∈ "p" :: inlineTags, tag ∉ tags) (note : Footnote) :
    ∀ child ∈ note.node.children, Element.Lacks tags child := by
  intro child member
  rcases List.mem_cons.mp member with rfl | inParagraphs
  · exact IsInline.lacks (fun tag inline => avoids tag (List.mem_cons_of_mem _ inline))
      (.inr (.inl (isAnchor_backNode note.number)))
  · obtain ⟨paragraph, _, rfl⟩ := List.mem_map.mp inParagraphs
    exact lacks_paragraph avoids paragraph

theorem lacks_note {tags : List String}
    (avoids : ∀ tag ∈ "aside" :: "p" :: inlineTags, tag ∉ tags) (note : Footnote) :
    Element.Lacks tags note.node := by
  refine .intro ?_ (lacks_below_note (fun tag member =>
    avoids tag (List.mem_cons_of_mem _ member)) note)
  have absent : "aside" ∉ tags := avoids "aside" List.mem_cons_self
  simpa [Element.isTagged, Footnote.node, Element.new] using absent

end Folio.Draft
