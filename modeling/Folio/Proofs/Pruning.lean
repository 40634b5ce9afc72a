import Folio.Proofs.Removal
import Folio.Proofs.Simulation

/-!
# The page of a draft

Pruning a page takes out the paragraphs without items and the sections that
have no blocks left, and touches nothing else: no pruned element carries a tail,
so no text comes loose.  A page is thus known by the draft at the end of its
lines, with the vacant parts left out.
-/

namespace Folio.Markup.Element

/-- Whether an element is taken out when it is pruned. -/
def vanishes (element : Node) : Bool :=
  isPrunable element.tag element.text element.children

mutual

/-- Whatever is taken out of a tree has no content, not even children that were
taken out of it. -/
theorem vanishes_of_mem_prune (element : Node) :
    ∀ gone ∈ element.prune.2, gone.vanishes = true := by
  obtain ⟨mark, tag, attributes, text, tail, children⟩ := element
  rw [prune]
  exact vanishes_of_mem_removed children

theorem vanishes_of_mem_removed (children : List Node) :
    ∀ gone ∈ (pruneAll children).removed, gone.vanishes = true := by
  cases children with
  | nil =>
      intro gone member
      cases member
  | cons child rest =>
      have below := vanishes_of_mem_prune child
      have beside := vanishes_of_mem_removed rest
      intro gone member
      cases goes : child.prune.1.vanishes with
      | true =>
        rw [vanishes] at goes
        simp only [pruneAll, goes, if_true, List.mem_append, List.mem_cons] at member
        rcases member with (rfl | inside) | after
        · exact goes
        · exact below gone inside
        · exact beside gone after
      | false =>
        rw [vanishes] at goes
        simp only [pruneAll, goes, Bool.false_eq_true, if_false, List.mem_append] at member
        rcases member with inside | after
        · exact below gone inside
        · exact beside gone after

end

/-- Pruning leaves these of some children, and no text comes loose. -/
def Prunes (children kept : List Node) : Prop :=
  (pruneAll children).loose = none ∧ (pruneAll children).kept = kept

theorem prune_of_prunes {element : Node} {kept : List Node}
    (prunes : Prunes element.children kept) :
    element.prune.1 = { element with children := kept } := by
  obtain ⟨loose, left⟩ := prunes
  cases element
  simp only [prune, loose, left]
  rfl

/-- A child that is not taken out stays where it stood. -/
theorem Prunes.cons {rest kept : List Node} (prunes : Prunes rest kept) {child : Node}
    (stays : child.prune.1.vanishes = false) :
    Prunes (child :: rest) (child.prune.1 :: kept) := by
  obtain ⟨loose, left⟩ := prunes
  rw [vanishes] at stays
  simp only [Prunes, pruneAll, stays, loose, left, joinLoose, Bool.false_eq_true, if_false,
    true_and]
  cases child.prune.1
  rfl

/-- A child that is taken out and has no tail leaves no trace. -/
theorem Prunes.skip {rest kept : List Node} (prunes : Prunes rest kept) {child : Node}
    (goes : child.prune.1.vanishes = true) (untailed : child.tail = none) :
    Prunes (child :: rest) kept := by
  obtain ⟨loose, left⟩ := prunes
  rw [vanishes] at goes
  simp only [Prunes, pruneAll, goes, loose, left, tail_prune, untailed, joinLoose, if_true,
    and_self]

theorem vanishes_of_untagged {element : Node} (untagged : element.isTagged prunableTags = false) :
    element.vanishes = false := by
  rw [isTagged] at untagged
  rw [vanishes, isPrunable, untagged, Bool.false_and, Bool.false_and]

/-- Children that pruning changes in no way may stand in front of others. -/
theorem Prunes.append {rest kept : List Node} (prunes : Prunes rest kept) {front : List Node}
    (unchanged : ∀ child ∈ front, child.prune.1 = child ∧ child.vanishes = false) :
    Prunes (front ++ rest) (front ++ kept) := by
  induction front with
  | nil => exact prunes
  | cons child others inductionHypothesis =>
      obtain ⟨same, stays⟩ := unchanged child List.mem_cons_self
      have following := inductionHypothesis fun other member =>
        unchanged other (List.mem_cons_of_mem child member)
      have kept := following.cons (same.symm ▸ stays)
      rw [same] at kept
      exact kept

theorem prunes_nil : Prunes [] [] := ⟨rfl, rfl⟩

theorem Lacks.prune {element : Node} (lacks : Lacks prunableTags element) :
    element.prune.1 = element ∧ element.vanishes = false := by
  induction lacks with
  | @intro element untagged below inductionHypothesis =>
      refine ⟨?_, vanishes_of_untagged untagged⟩
      have unchanged := prunes_nil.append inductionHypothesis
      rw [List.append_nil] at unchanged
      rw [prune_of_prunes unchanged]
      cases element
      rfl

/-- Pruning children that stand for things, when it leaves what stands for other
things, some of which are vacant. -/
theorem prunes_map {Thing : Type} {node : Thing → Node} {pruned : Thing → Thing}
    {isVacant : Thing → Bool} (prune_node : ∀ thing, (node thing).prune.1 = node (pruned thing))
    (vanishes_node : ∀ thing, (node thing).vanishes = isVacant thing)
    (untailed : ∀ thing, (node thing).tail = none) (things : List Thing) :
    Prunes (things.map node) (((things.map pruned).filter (!isVacant ·)).map node) := by
  induction things with
  | nil => exact prunes_nil
  | cons thing rest inductionHypothesis =>
      cases vacant : isVacant (pruned thing) with
      | true =>
          have goes : (node thing).prune.1.vanishes = true := by
            rw [prune_node, vanishes_node, vacant]
          simpa [vacant] using inductionHypothesis.skip goes (untailed thing)
      | false =>
          have stays : (node thing).prune.1.vanishes = false := by
            rw [prune_node, vanishes_node, vacant]
          simpa [vacant, prune_node] using inductionHypothesis.cons stays

theorem prunes_map_all {Thing : Type} {node : Thing → Node} {pruned : Thing → Thing}
    (prune_node : ∀ thing, (node thing).prune.1 = node (pruned thing))
    (stays : ∀ thing, (node thing).vanishes = false)
    (untailed : ∀ thing, (node thing).tail = none) (things : List Thing) :
    Prunes (things.map node) ((things.map pruned).map node) := by
  have prunes : Prunes (things.map node)
      (((things.map pruned).filter fun _ => !false).map node) :=
    prunes_map prune_node stays untailed things
  rwa [Bool.not_false, List.filter_eq_self.mpr fun _ _ => rfl] at prunes

end Folio.Markup.Element

namespace Folio.Draft

open Markup Render

/-! ### What is vacant -/

def Paragraph.isVacant (paragraph : Paragraph) : Bool := paragraph.items.isEmpty

def Cell.pruned (cell : Cell) : Cell :=
  { cell with paragraphs := cell.paragraphs.filter (!·.isVacant) }

def Grid.pruned (grid : Grid) : Grid :=
  { grid with rows := grid.rows.map (·.map Cell.pruned) }

def Footnote.pruned (note : Footnote) : Footnote :=
  { note with paragraphs := note.paragraphs.filter (!·.isVacant) }

def Block.pruned : Block → Block
  | .grid table => .grid table.pruned
  | .note footnote => .note footnote.pruned
  | block => block

def Block.isVacant : Block → Bool
  | .paragraph single => single.isVacant
  | _ => false

def Section.pruned (part : Section) : Section :=
  { part with blocks := (part.blocks.map Block.pruned).filter (!·.isVacant) }

def Section.isVacant (part : Section) : Bool := part.blocks.isEmpty

def Part.pruned : Part → Part
  | .rule => .rule
  | .closed part => .closed part.pruned

def Part.isVacant : Part → Bool
  | .rule => false
  | .closed part => part.isVacant

def kept (draft : Draft) : List Part :=
  ((draft.parts ++ [Part.closed draft.current]).map Part.pruned).filter (!·.isVacant)

/-- The body of a document whose lines have been drafted. -/
def body (options : Options) (document : Document) (draft : Draft) : Node :=
  { emptyBody options document with
    children := titleHeading options document ++ draft.kept.map Part.node }

/-- The page of a document whose lines have been drafted. -/
def page (options : Options) (document : Document) (draft : Draft) : Node :=
  assemble (Page.head options.stylesheets document) (body options document draft)

/-- Leaving out things that nothing is told of changes nothing that is told. -/
theorem flatMap_filter_of_nil {Thing Told : Type} {isVacant : Thing → Bool}
    {tell : Thing → List Told} (silent : ∀ thing, isVacant thing = true → tell thing = [])
    (things : List Thing) :
    (things.filter (!isVacant ·)).flatMap tell = things.flatMap tell := by
  induction things with
  | nil => rfl
  | cons thing rest inductionHypothesis =>
      cases vacant : isVacant thing with
      | true => simp [vacant, silent thing vacant, inductionHypothesis]
      | false => simp [vacant, inductionHypothesis]

/-- What is told of a part when something is told of blocks. -/
def Part.told {Told : Type} (tell : Block → List Told) : Part → List Told
  | .rule => []
  | .closed part => part.blocks.flatMap tell

theorem told_vacant {Told : Type} (tell : Block → List Told) {part : Part}
    (vacant : part.isVacant = true) : part.told tell = [] := by
  cases part with
  | rule => rfl
  | closed part =>
      rw [Part.isVacant, Section.isVacant, List.isEmpty_iff] at vacant
      rw [Part.told, vacant]
      rfl

section

variable {Told : Type} {tell : Block → List Told} {change : Told → Told}
  (silent : ∀ block, block.isVacant = true → tell block = [])
  (pruned : ∀ block, tell block.pruned = (tell block).map change)
include silent pruned

theorem told_pruned (part : Part) : part.pruned.told tell = (part.told tell).map change := by
  cases part with
  | rule => rfl
  | closed part =>
      rw [Part.pruned, Part.told, Section.pruned, flatMap_filter_of_nil silent,
        List.flatMap_map, Part.told, List.map_flatMap]
      simp only [pruned]

/-- What pruning does to what is told of each block, it does to what is told of all. -/
theorem flatMap_told_kept (draft : Draft) :
    draft.kept.flatMap (Part.told tell) =
      ((draft.parts ++ [Part.closed draft.current]).flatMap (Part.told tell)).map change := by
  rw [kept, flatMap_filter_of_nil fun _ vacant => told_vacant tell vacant, List.flatMap_map,
    List.map_flatMap]
  simp only [told_pruned silent pruned]

end

/-! ### Pruning the markup -/

theorem hasContent_appendText (holder : Node) (addition : String) :
    (holder.appendText addition).hasContent = true := by
  unfold Element.appendText
  split <;> simp [Element.hasContent, extendText]

/-- Whatever is put into an element is content, an empty text too. -/
theorem hasContent_put (item : Item) (holder : Node) : (item.put holder).hasContent = true := by
  cases item with
  | text run =>
      simp only [Item.put, appendRun]
      cases wrappers run.style with
      | cons outer inner => simp [appendWrapped, Element.appendChild, Element.hasContent]
      | nil =>
          cases pieces : Text.linesOf run.text with
          | nil =>
              rw [Text.linesOf, List.map_eq_nil_iff] at pieces
              exact absurd pieces (Text.splitLines_ne_nil _)
          | cons first rest =>
              have begun := hasContent_appendText holder first
              simp only [Element.hasContent, appendWrapped, appendPieces] at begun ⊢
              rcases Bool.or_eq_true_iff.mp begun with children | text
              · simp_all
              · simp [text]
  | _ => simp [Item.put, Element.appendChild, Element.hasContent]

/-- An element that holds a flow is without content when the flow is empty. -/
theorem hasContent_flow (items : List Item) {holder : Node} (vacant : holder.hasContent = false) :
    (flow items holder).hasContent = !items.isEmpty := by
  rcases List.eq_nil_or_concat items with rfl | ⟨earlier, last, rfl⟩
  · exact vacant
  · rw [List.concat_eq_append, flow_append, flow_cons, flow_nil, hasContent_put]
    simp

theorem vanishes_eq_hasContent {element : Node} (tagged : element.isTagged prunableTags = true) :
    element.vanishes = !element.hasContent := by
  rw [Element.isTagged] at tagged
  rw [Element.vanishes, Element.isPrunable, tagged, Element.hasContent]
  cases element.text <;> simp

theorem vanishes_paragraph (paragraph : Paragraph) :
    paragraph.node.vanishes = paragraph.isVacant := by
  rw [vanishes_eq_hasContent (by simp [Element.isTagged, prunableTags]), Paragraph.node,
    hasContent_flow _ (by simp [Element.hasContent]), Bool.not_not, Paragraph.isVacant]

theorem prune_inline {child : Node} (inline : IsInline child) :
    child.prune.1 = child ∧ child.vanishes = false :=
  (inline.lacks (by decide)).prune

theorem prune_paragraph (paragraph : Paragraph) : paragraph.node.prune.1 = paragraph.node := by
  have inline := isInline_flow (children_paragraphBase paragraph.alignment) paragraph.items
  have unchanged := Element.prunes_nil.append fun child member =>
    prune_inline (inline child member)
  rw [List.append_nil] at unchanged
  rw [Paragraph.node, Element.prune_of_prunes unchanged]
  cases flow paragraph.items (paragraphBase paragraph.alignment)
  rfl

theorem prunes_paragraphs (paragraphs : List Paragraph) :
    Element.Prunes (paragraphs.map Paragraph.node)
      ((paragraphs.filter (!·.isVacant)).map Paragraph.node) := by
  have prunes : Element.Prunes (paragraphs.map Paragraph.node)
      (((paragraphs.map id).filter (!·.isVacant)).map Paragraph.node) :=
    Element.prunes_map prune_paragraph vanishes_paragraph tail_paragraph paragraphs
  rwa [List.map_id] at prunes

theorem prune_cell (cell : Cell) : cell.node.prune.1 = cell.pruned.node := by
  have inline : ∀ child ∈ (flow cell.lead (Table.newCell cell.header)).children,
      IsInline child := isInline_flow rfl cell.lead
  have prunes := (prunes_paragraphs cell.paragraphs).append fun child member =>
    prune_inline (inline child member)
  exact Element.prune_of_prunes prunes

theorem vanishes_cell (cell : Cell) : cell.node.vanishes = false := by
  apply Element.vanishes_of_untagged
  cases shown : cell.header <;> simp [Element.isTagged, shown, prunableTags]

theorem prune_row (row : List Cell) : (rowNode row).prune.1 = rowNode (row.map Cell.pruned) :=
  Element.prune_of_prunes (Element.prunes_map_all prune_cell vanishes_cell tail_cell row)

theorem prune_grid (grid : Grid) : grid.node.prune.1 = grid.pruned.node := by
  have rows := Element.prunes_map_all prune_row (fun _ => rfl) (fun _ => rfl) grid.rows
  exact Element.prune_of_prunes rows

theorem prune_note (note : Footnote) : note.node.prune.1 = note.pruned.node := by
  have prunes := (prunes_paragraphs note.paragraphs).append fun child member =>
    prune_inline (List.mem_singleton.mp member ▸ .inr (.inl (isAnchor_backNode note.number)))
  exact Element.prune_of_prunes prunes

theorem prune_block (block : Block) : block.node.prune.1 = block.pruned.node := by
  cases block with
  | paragraph single => exact prune_paragraph single
  | heading items => exact (lacks_heading (by decide) items).prune.1
  | grid table => exact prune_grid table
  | note footnote => exact prune_note footnote

theorem vanishes_block (block : Block) : block.node.vanishes = block.isVacant := by
  cases block with
  | paragraph single => exact vanishes_paragraph single
  | heading items => exact (lacks_heading (by decide) items).prune.2
  | grid table => rfl
  | note footnote => rfl

theorem prune_section (part : Section) : part.node.prune.1 = part.pruned.node :=
  Element.prune_of_prunes (Element.prunes_map prune_block vanishes_block tail_block part.blocks)

theorem vanishes_section (part : Section) : part.node.vanishes = part.isVacant := by
  rw [vanishes_eq_hasContent (by simp [Element.isTagged, prunableTags]), hasContent_section,
    Bool.not_not]
  rfl

theorem prune_part (part : Part) : part.node.prune.1 = part.pruned.node := by
  cases part with
  | rule => rfl
  | closed part => exact prune_section part

theorem vanishes_part (part : Part) : part.node.vanishes = part.isVacant := by
  cases part with
  | rule => rfl
  | closed part => exact vanishes_section part

theorem tail_part (part : Part) : part.node.tail = none := by
  cases part with
  | rule => rfl
  | closed part => exact tail_section part

/-! ### The page -/

/-- An element of the head of a page: no section, no paragraph, and nothing in it
or after it but perhaps a text of its own. -/
def IsHeadEntry (element : Node) : Prop :=
  element.tag ∈ ["meta", "style", "link", "title"] ∧ element.tail = none ∧
    element.children = []

/-- What holds of a style sheet, of a link to one and of each way to describe a document
holds of everything in the head of a page. -/
theorem forall_head {Holds : Node → Prop}
    (charset : Holds (.new () "meta"
      [("http-equiv", "Content-Type"), ("content", "text/html; charset=utf-8")]))
    (sheet : Holds { Element.new () "style" [] with text := some Style.sheet })
    (link : ∀ address, Holds (.new () "link" [("rel", "stylesheet"), ("href", address)]))
    (title : ∀ text, Holds { Element.new () "title" [] with text := some text })
    (property : ∀ name value, Holds (Page.property name value))
    (stylesheets : List String) (document : Document) :
    ∀ child ∈ (Page.head stylesheets document).children, Holds child := by
  have mapped {Thing : Type} {node : Thing → Node} (holds : ∀ thing, Holds (node thing))
      (things : List Thing) : ∀ child ∈ things.map node, Holds child := by
    intro child member
    obtain ⟨thing, -, rfl⟩ := List.mem_map.mp member
    exact holds thing
  have merged (term name : String) :
      ∀ child ∈ Page.mergedProperty document term name, Holds child := by
    unfold Page.mergedProperty
    split
    · exact List.forall_mem_nil _
    · exact List.forall_mem_singleton.mpr (property _ _)
  have separate (term name : String) :
      ∀ child ∈ Page.separateProperties document term name, Holds child :=
    mapped (property name) (document.term term)
  have titled : ∀ child ∈ (if document.title.isEmpty then []
      else [{ Element.new () "title" [] with text := some document.title }]), Holds child := by
    split
    · exact List.forall_mem_nil _
    · exact List.forall_mem_singleton.mpr (title document.title)
  have styles : ∀ child ∈ Page.styleNodes stylesheets, Holds child :=
    List.forall_mem_append.mpr
      ⟨List.forall_mem_cons.mpr ⟨charset, List.forall_mem_singleton.mpr sheet⟩,
        mapped link stylesheets⟩
  have metadata : ∀ child ∈ Page.metadataNodes document, Holds child := by
    unfold Page.metadataNodes
    split
    · simp only [List.forall_mem_append]
      exact ⟨⟨⟨⟨⟨⟨titled, List.forall_mem_singleton.mpr (property _ _)⟩, merged _ _⟩,
        merged _ _⟩, separate _ _⟩, separate _ _⟩, separate _ _⟩
    · exact List.forall_mem_nil _
  exact List.forall_mem_append.mpr ⟨styles, metadata⟩

theorem isHeadEntry_head (stylesheets : List String) (document : Document) :
    ∀ child ∈ (Page.head stylesheets document).children, IsHeadEntry child := by
  have textless {tag : String} (tagged : tag ∈ ["meta", "style", "link", "title"])
      (attributes : List (String × String)) (text : Option String) :
      IsHeadEntry { Element.new () tag attributes with text := text } := ⟨tagged, rfl, rfl⟩
  exact forall_head (textless (by decide) _ none) (textless (by decide) _ _)
    (fun _ => textless (by decide) _ none) (fun _ => textless (by decide) _ _)
    (fun _ _ => textless (by decide) _ none) stylesheets document

theorem IsHeadEntry.lacks {tags : List String}
    (avoids : ∀ tag ∈ ["meta", "style", "link", "title"], tag ∉ tags) {element : Node}
    (entry : IsHeadEntry element) : Element.Lacks tags element := by
  obtain ⟨tagged, -, childless⟩ := entry
  exact .intro (by simpa [Element.isTagged] using avoids _ tagged) (by simp [childless])

theorem lacks_head {tags : List String}
    (avoids : ∀ tag ∈ ["head", "meta", "style", "link", "title"], tag ∉ tags)
    (stylesheets : List String) (document : Document) :
    Element.Lacks tags (Page.head stylesheets document) := by
  have absent : "head" ∉ tags := avoids "head" List.mem_cons_self
  refine .intro (by simpa [Element.isTagged, Page.head, Element.new] using absent) ?_
  intro child member
  exact (isHeadEntry_head stylesheets document child member).lacks fun tag entry =>
    avoids tag (List.mem_cons_of_mem _ entry)

theorem lacks_titleHeading {tags : List String} (absent : "h1" ∉ tags) (options : Options)
    (document : Document) :
    ∀ child ∈ titleHeading options document, Element.Lacks tags child := by
  intro child member
  unfold titleHeading at member
  split at member
  · rw [List.mem_singleton.mp member]
    exact .intro (by simpa [Element.isTagged, Element.new] using absent) (by simp [Element.new])
  · cases member

theorem body_eq (options : Options) (document : Document) (draft : Draft) :
    ∃ attributes, body options document draft =
      { Element.new () "body" attributes with
        children := titleHeading options document ++ draft.kept.map Part.node } := by
  obtain ⟨attributes, classed⟩ := foldl_addClass options.bodyClasses (.new () "body" [])
  refine ⟨attributes, ?_⟩
  rw [body, emptyBody, bodyWith, classed]
  rfl

@[simp]
theorem tag_body (options : Options) (document : Document) (draft : Draft) :
    (body options document draft).tag = "body" := by
  obtain ⟨attributes, same⟩ := body_eq options document draft
  rw [same]
  rfl

@[simp]
theorem text_body (options : Options) (document : Document) (draft : Draft) :
    (body options document draft).text = none := by
  obtain ⟨attributes, same⟩ := body_eq options document draft
  rw [same]
  rfl

@[simp]
theorem tail_body (options : Options) (document : Document) (draft : Draft) :
    (body options document draft).tail = none := by
  obtain ⟨attributes, same⟩ := body_eq options document draft
  rw [same]
  rfl

theorem prune_body (options : Options) (document : Document) {draft : Draft} {pass : Pass}
    (depicts : Depicts (emptyBody options document) draft pass) :
    pass.body.prune.1 = body options document draft := by
  have unpruned : pass.body =
      { emptyBody options document with
        children := titleHeading options document ++
          (draft.parts ++ [Part.closed draft.current]).map Part.node } := by
    rw [Pass.body, depicts.finished, depicts.current]
    simp [Element.appendChild, emptyBody, Part.node]
  have parts := Element.prunes_map prune_part vanishes_part tail_part
    (draft.parts ++ [Part.closed draft.current])
  rw [unpruned]
  exact Element.prune_of_prunes (parts.append fun child member =>
    (lacks_titleHeading (by decide) options document child member).prune)

theorem prune_assemble (options : Options) (document : Document) {draft : Draft} {pass : Pass}
    (depicts : Depicts (emptyBody options document) draft pass) :
    (assemble (Page.head options.stylesheets document) pass.body).prune.1 =
      page options document draft := by
  have pruned := prune_body options document depicts
  have stays : pass.body.prune.1.vanishes = false := by
    rw [pruned]
    refine Element.vanishes_of_untagged ?_
    simp [Element.isTagged, prunableTags]
  have children := (Element.prunes_nil.cons stays).append fun child member => by
    rw [List.mem_singleton.mp member]
    exact (lacks_head (by decide) options.stylesheets document).prune
  rw [pruned] at children
  exact Element.prune_of_prunes children

/-- A rendered page is the page of the draft at the end of the lines. -/
theorem renderTree_eq_page (options : Options) (document : Document) :
    renderTree options document =
      (start.run document.lines).map (page options document) := by
  rw [renderTree_eq_map]
  exact (agree_initialPass options document document.lines).map_eq fun draft pass depicts =>
    prune_assemble options document depicts

/-- A page that is rendered is the page of some draft. -/
theorem renderTree_ok {options : Options} {document : Document} {rendering : Node}
    (rendered : renderTree options document = .ok rendering) :
    ∃ draft, start.run document.lines = .ok draft ∧
      page options document draft = rendering := by
  rw [renderTree_eq_page] at rendered
  cases ran : start.run document.lines with
  | error failure =>
      rw [ran] at rendered
      cases rendered
  | ok draft =>
      rw [ran] at rendered
      exact ⟨draft, rfl, Except.ok.inj rendered⟩

end Folio.Draft
