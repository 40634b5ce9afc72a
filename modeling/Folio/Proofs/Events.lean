import Folio.Proofs.Entries
import Folio.Proofs.Selection

/-!
# Reading a page element by element

A reader who goes through the running text of a page meets characters, and enters and
leaves the elements in it: links, anchors, images, line breaks and formatting elements.
What stands inside a link is what is met between entering and leaving it.  This file
gives that reading for any tree, and for the entries of a draft, from which that of a
page is known.
-/

namespace Folio

open Markup Render

inductive Event where
  | char (c : Char)
  | enter (tag : String) (attributes : List (String × String))
  | leave (tag : String)
  deriving DecidableEq, Repr

namespace Event

def ofText (text : Option String) : List Event := (text.getD "").toList.map .char

/-- What is met in an element of running text.  Other elements are not met: only what
is in them is. -/
def around (tag : String) (attributes : List (String × String)) (inner : List Event) :
    List Event :=
  if tag ∈ Draft.inlineTags then .enter tag attributes :: inner ++ [.leave tag] else inner

def ofGlyph : Glyph → List Event
  | .char c => [.char c]
  | .lineBreak => around "br" [] []

theorem ofText_extendText (slot : Option String) (addition : String) :
    ofText (extendText slot addition) = ofText slot ++ ofText (some addition) := by
  simp [ofText, extendText]

theorem around_other {tag : String} (other : tag ∉ Draft.inlineTags)
    (attributes : List (String × String)) (inner : List Event) :
    around tag attributes inner = inner :=
  if_neg other

end Event

open Event

namespace Markup.Element

mutual
/-- What is met in an element and in its tail. -/
def events : Node → List Event
  | ⟨_, tag, attributes, text, tail, children⟩ =>
      around tag attributes (ofText text ++ eventsAll children) ++ ofText tail

def eventsAll : List Node → List Event
  | [] => []
  | child :: rest => child.events ++ eventsAll rest
end

/-- What is met in an element when this is met inside it. -/
def eventsWith (element : Node) (inner : List Event) : List Event :=
  around element.tag element.attributes inner

/-- What is met inside an element. -/
def eventsInside (element : Node) : List Event :=
  ofText element.text ++ eventsAll element.children

/-- What is met in the tables of a page, or in all else that its sections hold. -/
def eventsOn (inTable : Bool) (page : Node) : List Event :=
  ((page.sections.flatMap Element.children).filter (·.isTagged ["table"] == inTable)).flatMap
    events

end Markup.Element

/-- What is met in a run: its wrappers, and in them its text with line breaks. -/
def TextRun.events (run : TextRun) : List Event :=
  (wrappers run.style).foldr Element.eventsWith ((glyphsOf run.text).flatMap ofGlyph)

namespace Draft

def Item.events : Item → List Event
  | .text run => run.events
  | .link address hint runs =>
      (hinted hint (.new () "a" [("href", address)])).eventsWith (runs.flatMap TextRun.events)
  | .anchor name => (anchorNode name).eventsWith []
  | .image source hint => (imageNode source hint).eventsWith []
  | .marker number => (Pass.noteMarker number).eventsWith (ofText (some (toString number)))

def Entry.events : Entry → List Event
  | .item held => held.events
  | .back number => (backNode number).eventsWith []

end Draft

/-! ### Reading grown elements -/

namespace Markup.Element

theorem events_eq (element : Node) :
    element.events = element.eventsWith element.eventsInside ++ ofText element.tail := by
  cases element
  rw [events, eventsWith, eventsInside]

/-- An element is met as its tag and attributes, with what is inside it. -/
theorem events_of_shell {element shell : Node} (same : element.shell = shell.shell)
    (untailed : shell.tail = none) {inner : List Event} (inside : element.eventsInside = inner) :
    element.events = shell.eventsWith inner := by
  have tag : element.tag = shell.tag := Draft.tag_eq_of_shell same
  have attributes : element.attributes = shell.attributes := by
    change element.shell.attributes = shell.shell.attributes
    rw [same]
  have tail : element.tail = none := (Draft.tail_eq_of_shell same).trans untailed
  rw [events_eq, inside, eventsWith, tag, attributes, tail]
  exact List.append_nil _

theorem eventsAll_eq_flatMap (children : List Node) :
    eventsAll children = children.flatMap events := by
  induction children with
  | nil => rfl
  | cons child rest inductionHypothesis =>
      rw [eventsAll, inductionHypothesis, List.flatMap_cons]

theorem events_extendTail (element : Node) (addition : String) :
    (element.withTail (extendText element.tail addition)).events =
      element.events ++ ofText (some addition) := by
  have met : (element.withTail (extendText element.tail addition)).eventsWith
      (element.withTail (extendText element.tail addition)).eventsInside =
        element.eventsWith element.eventsInside := rfl
  rw [events_eq, events_eq, met]
  simp [withTail, ofText_extendText]

theorem eventsInside_append_children (holder : Node) (more : List Node) :
    eventsInside { holder with children := holder.children ++ more } =
      holder.eventsInside ++ eventsAll more := by
  simp [eventsInside, eventsAll_eq_flatMap]

theorem eventsInside_appendChild (holder child : Node) :
    (holder.appendChild child).eventsInside = holder.eventsInside ++ child.events := by
  simp [appendChild, eventsInside_append_children, eventsAll]

theorem eventsInside_appendText (holder : Node) (addition : String) :
    (holder.appendText addition).eventsInside =
      holder.eventsInside ++ ofText (some addition) := by
  rcases List.eq_nil_or_concat holder.children with empty | ⟨earlier, last, split⟩
  · rw [Draft.appendText_of_no_children empty]
    simp [eventsInside, empty, eventsAll, ofText_extendText]
  · rw [List.concat_eq_append] at split
    rw [Draft.appendText_of_children split]
    simp [eventsInside, split, eventsAll_eq_flatMap, events_extendTail]

theorem events_lineBreak (piece : String) :
    (lineBreak piece).events = around "br" [] [] ++ ofText (some piece) := by
  rw [events_eq]
  rfl

theorem eventsInside_appendPieces (holder : Node) (pieces : List String) :
    (appendPieces holder pieces).eventsInside =
      holder.eventsInside ++ (glyphsOfPieces (pieces.map String.toList)).flatMap ofGlyph := by
  have shown (piece : String) : (piece.toList.map Glyph.char).flatMap ofGlyph =
      ofText (some piece) := by
    rw [List.flatMap_map]
    exact List.map_eq_flatMap.symm
  cases pieces with
  | nil => simp [appendPieces, glyphsOfPieces]
  | cons first rest =>
      have begun := eventsInside_appendText holder first
      have breaks : eventsAll (rest.map lineBreak) =
          ((rest.map String.toList).flatMap fun piece =>
            Glyph.lineBreak :: piece.map .char).flatMap ofGlyph := by
        simp only [eventsAll_eq_flatMap, List.flatMap_map, List.flatMap_assoc, events_lineBreak,
          List.flatMap_cons, shown]
        rfl
      rw [appendPieces, eventsInside_append_children, begun, breaks]
      simp [glyphsOfPieces, shown]

/-- Text in nested wrappers is met inside all of them. -/
theorem events_appendWrapped (pieces : List String) {outer : Node} {inner : List Node}
    (bare : ∀ wrapper ∈ outer :: inner,
      ∃ tag ∈ Draft.formattingTags, ∃ attributes, wrapper = Element.new () tag attributes) :
    (appendWrapped pieces inner outer).events =
      (outer :: inner).foldr eventsWith
        ((glyphsOfPieces (pieces.map String.toList)).flatMap ofGlyph) := by
  induction inner generalizing outer with
  | nil =>
      obtain ⟨tag, formatting, attributes, rfl⟩ := bare outer List.mem_cons_self
      have shell := Draft.shell_appendPieces (Element.new () tag attributes) pieces
      exact events_of_shell shell rfl (eventsInside_appendPieces _ pieces)
  | cons next rest inductionHypothesis =>
      obtain ⟨tag, formatting, attributes, rfl⟩ := bare outer List.mem_cons_self
      have inside := inductionHypothesis fun wrapper member =>
        bare wrapper (List.mem_cons_of_mem _ member)
      refine events_of_shell (Draft.shell_appendChild _ _) rfl ?_
      rw [eventsInside_appendChild, inside]
      rfl

/-! ### Reading flows -/

/-- A run put at the end of an element is met behind everything inside it. -/
theorem eventsInside_appendRun (run : TextRun) (holder : Node) :
    (appendRun run holder).eventsInside = holder.eventsInside ++ run.events := by
  unfold appendRun TextRun.events
  rw [glyphsOf_eq]
  cases wrapped : wrappers run.style with
  | nil => exact eventsInside_appendPieces holder _
  | cons outer inner =>
      have bare := Draft.wrappers_new run.style
      rw [wrapped] at bare
      rw [appendWrapped, eventsInside_appendChild, events_appendWrapped _ bare]

end Markup.Element

namespace Draft

open Markup.Element

theorem eventsInside_foldl_appendRun (runs : List TextRun) (holder : Node) :
    (runs.foldl (fun link run => appendRun run link) holder).eventsInside =
      holder.eventsInside ++ runs.flatMap TextRun.events := by
  induction runs generalizing holder with
  | nil => simp
  | cons run rest inductionHypothesis =>
      rw [List.foldl_cons, inductionHypothesis, eventsInside_appendRun, List.flatMap_cons,
        List.append_assoc]

theorem events_linkNode (address : String) (hint : Option String) (runs : List TextRun) :
    (linkNode address hint runs).events = (Item.link address hint runs).events := by
  obtain ⟨attributes, titled⟩ := hinted_eq hint (.new () "a" [("href", address)])
  have shell : (linkNode address hint runs).shell =
      (hinted hint (.new () "a" [("href", address)])).shell := by
    rw [linkNode_eq_flow, shell_flow]
  refine events_of_shell shell (by rw [titled]; rfl) ?_
  rw [linkNode, eventsInside_foldl_appendRun, titled]
  rfl

theorem events_of_node? {item : Item} {node : Node} (stands : item.node? = some node) :
    node.events = item.events := by
  cases item with
  | text run => cases stands
  | link address hint runs =>
      cases stands
      exact events_linkNode address hint runs
  | anchor name =>
      cases stands
      exact events_of_shell rfl rfl rfl
  | image source hint =>
      obtain ⟨attributes, titled⟩ := hinted_eq hint (.new () "img" [("src", source)])
      cases stands
      refine events_of_shell rfl ?_ ?_
      · rw [imageNode, titled]
        rfl
      · rw [imageNode, titled]
        rfl
  | marker number =>
      cases stands
      exact events_of_shell rfl rfl (List.append_nil _)

theorem eventsInside_put (item : Item) (holder : Node) :
    (item.put holder).eventsInside = holder.eventsInside ++ item.events := by
  have appended {node : Node} (stands : item.node? = some node) :
      (holder.appendChild node).eventsInside = holder.eventsInside ++ item.events := by
    rw [eventsInside_appendChild, events_of_node? stands]
  cases item with
  | text run => exact eventsInside_appendRun run holder
  | _ => exact appended rfl

theorem eventsInside_flow (items : List Item) (holder : Node) :
    (flow items holder).eventsInside = holder.eventsInside ++ items.flatMap Item.events := by
  induction items generalizing holder with
  | nil => simp
  | cons item rest inductionHypothesis =>
      rw [flow_cons, inductionHypothesis, eventsInside_put, List.append_assoc]
      rfl

/-! ### Reading blocks -/

/-- An element that is not met itself, and that nothing follows, is met as what is inside
it. -/
theorem events_of_holder {element : Node} {tag : String} (tagged : element.tag = tag)
    (other : tag ∉ inlineTags) (untailed : element.tail = none) :
    element.events = element.eventsInside := by
  rw [events_eq, eventsWith, around_other (tagged ▸ other), untailed]
  exact List.append_nil _

theorem events_paragraph (paragraph : Paragraph) :
    paragraph.node.events = paragraph.items.flatMap Item.events := by
  obtain ⟨attributes, base⟩ := paragraphBase_eq paragraph.alignment
  rw [events_of_holder (tag_paragraph paragraph) (by decide) (tail_paragraph paragraph),
    Paragraph.node, eventsInside_flow, base]
  rfl

theorem eventsAll_paragraphs (paragraphs : List Paragraph) :
    eventsAll (paragraphs.map Paragraph.node) =
      (paragraphs.flatMap Paragraph.items).flatMap Item.events := by
  simp [eventsAll_eq_flatMap, List.flatMap_map, List.flatMap_assoc, events_paragraph]

theorem events_cell (cell : Cell) : cell.node.events = cell.items.flatMap Item.events := by
  have other : (if cell.header then "th" else "td") ∉ inlineTags := by
    cases cell.header <;> decide
  rw [events_of_holder (tag_cell cell) other (tail_cell cell), Cell.node,
    eventsInside_append_children, eventsInside_flow, eventsAll_paragraphs, Cell.items,
    List.flatMap_append]
  rfl

theorem events_row (row : List Cell) :
    (rowNode row).events = (row.flatMap Cell.items).flatMap Item.events := by
  have tagged : (rowNode row).tag = "tr" := rfl
  rw [events_of_holder tagged (by decide) rfl]
  simp [eventsInside, ofText, rowNode, Element.new, eventsAll_eq_flatMap, List.flatMap_map,
    List.flatMap_assoc, events_cell]

theorem events_block (block : Block) :
    block.node.events = block.entries.flatMap Entry.events := by
  have plain (items : List Item) :
      (items.map Entry.item).flatMap Entry.events = items.flatMap Item.events := by
    rw [List.flatMap_map]
    rfl
  cases block with
  | paragraph single => exact (events_paragraph single).trans (plain _).symm
  | heading items =>
      rw [Block.node, events_of_holder (tag_flow items headingBase) (by decide)
        (tail_flow items headingBase), eventsInside_flow]
      exact (plain items).symm
  | grid table =>
      have tagged : table.node.tag = "table" := rfl
      rw [Block.node, events_of_holder tagged (by decide) rfl]
      refine Eq.trans ?_ (plain _).symm
      simp [eventsInside, ofText, Grid.node, Element.new, eventsAll_eq_flatMap, List.flatMap_map,
        List.flatMap_assoc, events_row, Block.items]
  | note footnote =>
      have back : (backNode footnote.number).events = (backNode footnote.number).eventsWith [] :=
        events_of_shell rfl rfl rfl
      have tagged : footnote.node.tag = "aside" := rfl
      rw [Block.node, events_of_holder tagged (by decide) rfl, Block.entries, List.flatMap_cons,
        plain,
        ← eventsAll_paragraphs]
      exact congrArg (· ++ _) back

/-! ### Reading pages -/

theorem flatMap_children_sections (parts : List Part) :
    ((parts.map Part.node).filter (·.isTagged ["section"])).flatMap Element.children =
      (parts.flatMap (Part.told fun block => [block])).map Block.node := by
  induction parts with
  | nil => rfl
  | cons part rest inductionHypothesis =>
      cases part with
      | rule => exact inductionHypothesis
      | closed part =>
          have isSection : (Part.closed part).node.isTagged ["section"] = true := by
            simp [Part.node, Element.isTagged]
          rw [List.map_cons, List.filter_cons_of_pos isSection, List.flatMap_cons,
            inductionHypothesis, List.flatMap_cons, List.map_append, Part.node, children_section]
          simp [Part.told]

theorem flatMap_told_blocks {Told : Type} (tell : Block → List Told) (parts : List Part) :
    (parts.flatMap (Part.told fun block => [block])).flatMap tell =
      parts.flatMap (Part.told tell) := by
  induction parts with
  | nil => rfl
  | cons part rest inductionHypothesis =>
      rw [List.flatMap_cons, List.flatMap_append, inductionHypothesis, List.flatMap_cons]
      cases part <;> simp [Part.told]

/-- Leaving out the blocks of the other side is telling nothing of them. -/
theorem flatMap_filter_side {Told : Type} (tell : Block → List Told) (inTable : Bool)
    (blocks : List Block) :
    (blocks.filter (·.kind.isGrid == inTable)).flatMap tell =
      blocks.flatMap fun block => if block.kind.isGrid = inTable then tell block else [] := by
  induction blocks with
  | nil => rfl
  | cons block rest inductionHypothesis =>
      rw [List.filter_cons, List.flatMap_cons, ← inductionHypothesis]
      by_cases here : block.kind.isGrid = inTable <;> simp [here]

theorem flatMap_entriesOn_kept (draft : Draft) (inTable : Bool) :
    draft.kept.flatMap (Part.told (Block.entriesOn inTable)) = draft.entriesOn inTable := by
  have vacant (block : Block) (isVacant : block.isVacant = true) :
      block.entriesOn inTable = [] := by
    cases block with
    | paragraph single =>
        have items : single.items = [] := List.isEmpty_iff.mp isVacant
        exact entriesOn_of_empty (by simp [Block.entries, Block.items, items]) inTable
    | _ => cases isVacant
  have pruned (block : Block) : block.pruned.entriesOn inTable =
      (block.entriesOn inTable).map id := by
    have kind : block.pruned.kind = block.kind := by cases block <;> rfl
    rw [List.map_id, Block.entriesOn, Block.entriesOn, kind, entries_pruned]
  rw [flatMap_told_kept vacant pruned, List.map_id, entriesOn]

/-- A page is met as the entries of the draft that it comes from. -/
theorem eventsOn_page (options : Options) (document : Document) (draft : Draft)
    (inTable : Bool) :
    (page options document draft).eventsOn inTable =
      (draft.entriesOn inTable).flatMap Entry.events := by
  have sides : ((·.isTagged ["table"] == inTable) ∘ Block.node) =
      fun block => block.kind.isGrid == inTable := by
    funext block
    rw [Function.comp_apply, isTagged_table]
  have told : (fun block : Block =>
      if block.kind.isGrid = inTable then block.node.events else []) =
        fun block => (block.entriesOn inTable).flatMap Entry.events := by
    funext block
    rw [Block.entriesOn, events_block]
    split <;> rfl
  rw [eventsOn, sections_page, flatMap_children_sections, List.filter_map, sides, List.flatMap_map,
    flatMap_filter_side, told, ← flatMap_entriesOn_kept, ← List.flatMap_assoc,
    flatMap_told_blocks]

end Draft

end Folio
