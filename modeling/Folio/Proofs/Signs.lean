import Folio.Proofs.Pruning

/-!
# Reading a page sign by sign

A reader who goes through the sections of a page meets characters and line
breaks, each in certain styles and either inside a table or outside.  The
styles are read off the formatting elements around a sign.  This file gives
that reading for any tree, and for the blocks of a draft, which are read off
their items alone.
-/

namespace Folio

open Markup Render

inductive Glyph where
  | char (c : Char)
  | lineBreak
  deriving DecidableEq, Repr

/-- A glyph as a reader meets it. -/
structure Sign where
  glyph : Glyph
  style : RunStyle
  inTable : Bool
  deriving DecidableEq, Repr

/-- The styles of either of two sets. -/
def RunStyle.union (first second : RunStyle) : RunStyle :=
  { italic := first.italic || second.italic
    bold := first.bold || second.bold
    underline := first.underline || second.underline
    strikeout := first.strikeout || second.strikeout
    mono := first.mono || second.mono
    supertext := first.supertext || second.supertext
    subtext := first.subtext || second.subtext }

namespace Markup.Element

/-- The styles inside an element, given those around it. -/
def styleInside (outer : RunStyle) (element : Node) : RunStyle :=
  let spanned (name : String) := element.tag == "span" && element.classes.contains name
  { italic := outer.italic || element.tag == "em"
    bold := outer.bold || element.tag == "strong"
    underline := outer.underline || spanned Style.underlineClass
    strikeout := outer.strikeout || spanned Style.strikeoutClass
    mono := outer.mono || spanned Style.monospaceClass
    supertext := outer.supertext || element.tag == "sup"
    subtext := outer.subtext || element.tag == "sub" }

def signsOfText (inTable : Bool) (style : RunStyle) (text : Option String) : List Sign :=
  (text.getD "").toList.map fun c => ⟨.char c, style, inTable⟩

mutual
/-- An element and its tail as they are read, given the styles around them. -/
def signs (inTable : Bool) (style : RunStyle) : Node → List Sign
  | ⟨mark, tag, attributes, text, tail, children⟩ =>
      let inner := styleInside style ⟨mark, tag, attributes, text, tail, children⟩
      let within := inTable || tag == "table"
      (if tag == "br" then [⟨.lineBreak, style, inTable⟩] else []) ++
        signsOfText within inner text ++ signsAll within inner children ++
        signsOfText inTable style tail

def signsAll (inTable : Bool) (style : RunStyle) : List Node → List Sign
  | [] => []
  | child :: rest => child.signs inTable style ++ signsAll inTable style rest
end

/-- What is inside an element as it is read, given the styles there. -/
def signsInside (inTable : Bool) (style : RunStyle) (element : Node) : List Sign :=
  signsOfText inTable style element.text ++ signsAll inTable style element.children

/-- What stands in the body of a page. -/
def bodyChildren (page : Node) : List Node :=
  (page.children.filter (·.isTagged ["body"])).flatMap Element.children

/-- The sections of a page. -/
def sections (page : Node) : List Node :=
  (page.children.filter (·.isTagged ["body"])).flatMap fun body =>
    body.children.filter (·.isTagged ["section"])

/-- The sections of a page as they are read. -/
def pageSigns (page : Node) : List Sign :=
  page.sections.flatMap (signsInside false .plain)

end Markup.Element

/-! ### What lines are to be read as -/

/-- A text with each of its line ends as one line break. -/
def glyphsOf (text : String) : List Glyph :=
  (Text.unifyNewlines text.toList).map fun c => if c = '\n' then .lineBreak else .char c

def TextRun.signs (inTable : Bool) (run : TextRun) : List Sign :=
  (glyphsOf run.text).map fun glyph => ⟨glyph, run.style, inTable⟩

def numberSigns (inTable : Bool) (number : Nat) : List Sign :=
  (toString number).toList.map fun c => ⟨.char c, .plain, inTable⟩

namespace Draft

def Item.signs (inTable : Bool) : Item → List Sign
  | .text run => run.signs inTable
  | .link _ _ runs => runs.flatMap (·.signs inTable)
  | .anchor _ | .image _ _ => []
  | .marker number => numberSigns inTable number

def itemSigns (inTable : Bool) (items : List Item) : List Sign :=
  items.flatMap (·.signs inTable)

def Paragraph.signs (inTable : Bool) (paragraph : Paragraph) : List Sign :=
  itemSigns inTable paragraph.items

def Cell.signs (cell : Cell) : List Sign :=
  itemSigns true cell.lead ++ cell.paragraphs.flatMap (·.signs true)

def Block.signs : Block → List Sign
  | .paragraph single => single.signs false
  | .heading items => itemSigns false items
  | .grid table => table.rows.flatMap (·.flatMap Cell.signs)
  | .note footnote => footnote.paragraphs.flatMap (·.signs false)

def Part.signs : Part → List Sign
  | .rule => []
  | .closed part => part.blocks.flatMap Block.signs

/-- All parts of a draft as they are to be read. -/
def signs (draft : Draft) : List Sign :=
  draft.parts.flatMap Part.signs ++ draft.blocks.flatMap Block.signs

end Draft

/-! ### Line ends -/

/-- Pieces of text with a line break between each two. -/
def glyphsOfPieces : List (List Char) → List Glyph
  | [] => []
  | first :: rest => first.map .char ++ rest.flatMap fun piece => .lineBreak :: piece.map .char

theorem glyphsOfPieces_nil_cons {pieces : List (List Char)} (more : pieces ≠ []) :
    glyphsOfPieces ([] :: pieces) = .lineBreak :: glyphsOfPieces pieces := by
  cases pieces with
  | nil => exact absurd rfl more
  | cons first rest => simp [glyphsOfPieces]

theorem glyphsOfPieces_extendLine (c : Char) (pieces : List (List Char)) :
    glyphsOfPieces (Text.extendLine c pieces) = .char c :: glyphsOfPieces pieces := by
  cases pieces with
  | nil => rfl
  | cons first rest => simp [glyphsOfPieces, Text.extendLine]

/-- Cutting a text at its line ends loses nothing but which line ends they
were. -/
theorem glyphsOfPieces_splitLines (text : List Char) :
    glyphsOfPieces (Text.splitLines text) =
      (Text.unifyNewlines text).map fun c => if c = '\n' then .lineBreak else .char c := by
  fun_induction Text.splitLines text with
  | case1 => rfl
  | case2 rest inductionHypothesis =>
      rw [glyphsOfPieces_nil_cons (Text.splitLines_ne_nil rest), inductionHypothesis]
      simp [Text.unifyNewlines]
  | case3 rest other inductionHypothesis =>
      rw [glyphsOfPieces_nil_cons (Text.splitLines_ne_nil rest), inductionHypothesis]
      rw [Text.unifyNewlines]
      · simp
      · exact other
  | case4 rest inductionHypothesis =>
      rw [glyphsOfPieces_nil_cons (Text.splitLines_ne_nil rest), inductionHypothesis]
      simp [Text.unifyNewlines]
  | case5 c rest notReturnFeed notReturn notFeed inductionHypothesis =>
      rw [glyphsOfPieces_extendLine, inductionHypothesis]
      rw [Text.unifyNewlines, List.map_cons, if_neg notFeed]
      · exact notReturnFeed
      · exact notReturn

theorem glyphsOf_eq (text : String) :
    glyphsOf text = glyphsOfPieces ((Text.linesOf text).map String.toList) := by
  rw [Text.linesOf, List.map_map]
  simp only [Function.comp_def, String.toList_ofList, List.map_id']
  exact (glyphsOfPieces_splitLines text.toList).symm

/-! ### Reading grown elements -/

namespace Markup.Element

theorem signs_eq (inTable : Bool) (style : RunStyle) (element : Node) :
    element.signs inTable style =
      (if element.tag == "br" then [⟨.lineBreak, style, inTable⟩] else []) ++
        element.signsInside (inTable || element.tag == "table") (element.styleInside style) ++
        signsOfText inTable style element.tail := by
  cases element
  simp [signs, signsInside]

theorem signsAll_eq_flatMap (inTable : Bool) (style : RunStyle) (children : List Node) :
    signsAll inTable style children = children.flatMap (·.signs inTable style) := by
  induction children with
  | nil => rfl
  | cons child rest inductionHypothesis =>
      rw [signsAll, inductionHypothesis, List.flatMap_cons]

@[simp]
theorem signsOfText_none (inTable : Bool) (style : RunStyle) :
    signsOfText inTable style none = [] := rfl

theorem signsOfText_extendText (inTable : Bool) (style : RunStyle) (slot : Option String)
    (addition : String) :
    signsOfText inTable style (extendText slot addition) =
      signsOfText inTable style slot ++ signsOfText inTable style (some addition) := by
  simp [signsOfText, extendText]

/-- The styles inside an element depend on its tag and its attributes. -/
theorem styleInside_of_shell (style : RunStyle) {first second : Node}
    (same : first.shell = second.shell) : first.styleInside style = second.styleInside style := by
  change first.shell.styleInside style = second.shell.styleInside style
  rw [same]

theorem signs_extendTail (inTable : Bool) (style : RunStyle) (element : Node)
    (addition : String) :
    (element.withTail (extendText element.tail addition)).signs inTable style =
      element.signs inTable style ++ signsOfText inTable style (some addition) := by
  have styles : (element.withTail (extendText element.tail addition)).styleInside style =
      element.styleInside style := rfl
  rw [signs_eq, signs_eq, styles]
  simp [withTail, signsInside, signsOfText_extendText]

theorem signsInside_append_children (inTable : Bool) (style : RunStyle) (holder : Node)
    (more : List Node) :
    signsInside inTable style { holder with children := holder.children ++ more } =
      holder.signsInside inTable style ++ signsAll inTable style more := by
  simp [signsInside, signsAll_eq_flatMap]

theorem signsInside_appendChild (inTable : Bool) (style : RunStyle) (holder child : Node) :
    (holder.appendChild child).signsInside inTable style =
      holder.signsInside inTable style ++ child.signs inTable style := by
  simp [appendChild, signsInside_append_children, signsAll]

theorem signsInside_appendText (inTable : Bool) (style : RunStyle) (holder : Node)
    (addition : String) :
    (holder.appendText addition).signsInside inTable style =
      holder.signsInside inTable style ++ signsOfText inTable style (some addition) := by
  rcases List.eq_nil_or_concat holder.children with empty | ⟨earlier, last, split⟩
  · rw [Draft.appendText_of_no_children empty]
    simp [signsInside, empty, signsAll, signsOfText_extendText]
  · rw [List.concat_eq_append] at split
    rw [Draft.appendText_of_children split]
    simp [signsInside, split, signsAll_eq_flatMap, signs_extendTail]

theorem signs_lineBreak (inTable : Bool) (style : RunStyle) (piece : String) :
    (lineBreak piece).signs inTable style =
      ⟨.lineBreak, style, inTable⟩ :: signsOfText inTable style (some piece) := by
  simp [signs_eq, lineBreak, Element.new, signsInside, signsAll]

theorem signsInside_appendPieces (inTable : Bool) (style : RunStyle) (holder : Node)
    (pieces : List String) :
    (appendPieces holder pieces).signsInside inTable style =
      holder.signsInside inTable style ++
        (glyphsOfPieces (pieces.map String.toList)).map fun glyph => ⟨glyph, style, inTable⟩ := by
  cases pieces with
  | nil => simp [appendPieces, glyphsOfPieces]
  | cons first rest =>
      have begun := signsInside_appendText inTable style holder first
      rw [signsInside, signsAll_eq_flatMap] at begun
      simp only [appendPieces, signsInside, signsAll_eq_flatMap, List.flatMap_append,
        ← List.append_assoc]
      rw [begun]
      simp [glyphsOfPieces, signsOfText, signsInside, signsAll_eq_flatMap, List.flatMap_map,
        List.map_flatMap, signs_lineBreak, Function.comp_def]

/-! ### Styles of a run -/

theorem signs_formatting {element : Node} (formatting : element.tag ∈ Draft.formattingTags)
    (inTable : Bool) (style : RunStyle) :
    element.signs inTable style =
      element.signsInside inTable (element.styleInside style) ++
        signsOfText inTable style element.tail := by
  have others : ∀ tag ∈ Draft.formattingTags, (tag == "br") = false ∧ (tag == "table") = false := by
    decide
  obtain ⟨noBreak, noTable⟩ := others element.tag formatting
  rw [signs_eq, noBreak, noTable]
  simp

/-- Text in nested wrappers is read in the styles that all of them give. -/
theorem signs_appendWrapped (inTable : Bool) (style : RunStyle) (pieces : List String)
    {outer : Node} {inner : List Node}
    (bare : ∀ wrapper ∈ outer :: inner,
      ∃ tag ∈ Draft.formattingTags, ∃ attributes, wrapper = Element.new () tag attributes) :
    (appendWrapped pieces inner outer).signs inTable style =
      (glyphsOfPieces (pieces.map String.toList)).map fun glyph =>
        ⟨glyph, (outer :: inner).foldl styleInside style, inTable⟩ := by
  induction inner generalizing style outer with
  | nil =>
      obtain ⟨tag, formatting, attributes, rfl⟩ := bare outer List.mem_cons_self
      have shell := Draft.shell_appendPieces (Element.new () tag attributes) pieces
      have sameTag := Draft.tag_eq_of_shell shell
      rw [appendWrapped, signs_formatting (by rw [sameTag]; exact formatting),
        styleInside_of_shell style shell, signsInside_appendPieces,
        Draft.tail_eq_of_shell shell]
      simp [signsInside, Element.new, signsAll]
  | cons next rest inductionHypothesis =>
      obtain ⟨tag, formatting, attributes, rfl⟩ := bare outer List.mem_cons_self
      have inside := inductionHypothesis (styleInside style (Element.new () tag attributes))
        fun wrapper member => bare wrapper (List.mem_cons_of_mem _ member)
      rw [appendWrapped, signs_formatting formatting, signsInside_appendChild,
        styleInside_of_shell style (Draft.shell_appendChild _ _), inside]
      simp [signsInside, Element.new, signsAll, appendChild]

theorem styleInside_eq_union (outer : RunStyle) (element : Node) :
    styleInside outer element = outer.union (styleInside .plain element) := by
  simp [styleInside, RunStyle.plain, RunStyle.union]

theorem foldl_styleInside_eq_union (outer : RunStyle) (elements : List Node) :
    elements.foldl styleInside outer =
      outer.union (elements.foldl styleInside .plain) := by
  induction elements generalizing outer with
  | nil => simp [RunStyle.union, RunStyle.plain]
  | cons element rest inductionHypothesis =>
      rw [List.foldl_cons, List.foldl_cons, inductionHypothesis,
        inductionHypothesis (styleInside .plain element), styleInside_eq_union]
      simp [RunStyle.union, Bool.or_assoc]

theorem foldl_styleInside_spanOf (style : RunStyle) :
    (spanOf style).foldl styleInside .plain =
      { RunStyle.plain with
        underline := style.underline, strikeout := style.strikeout, mono := style.mono } := by
  obtain ⟨italic, bold, underline, strikeout, mono, supertext, subtext⟩ := style
  -- Neither side looks at the other styles, so eight cases are left.
  have spans : ∀ underline strikeout mono : Bool,
      (spanOf ⟨false, false, underline, strikeout, mono, false, false⟩).foldl
          styleInside .plain =
        ⟨false, false, underline, strikeout, mono, false, false⟩ := by decide
  exact spans underline strikeout mono

/-- The wrappers of a run give its text exactly the styles of the run. -/
theorem foldl_styleInside_wrappers (style : RunStyle) :
    (wrappers style).foldl styleInside .plain = style := by
  have italics : (if style.italic then [Element.new () "em" []] else []).foldl styleInside .plain =
      { RunStyle.plain with italic := style.italic } := by
    cases style.italic <;> decide
  have bolds : (if style.bold then [Element.new () "strong" []] else []).foldl styleInside .plain =
      { RunStyle.plain with bold := style.bold } := by
    cases style.bold <;> decide
  have raised : (if style.supertext then [Element.new () "sup" []] else []).foldl
      styleInside .plain = { RunStyle.plain with supertext := style.supertext } := by
    cases style.supertext <;> decide
  have lowered : (if style.subtext then [Element.new () "sub" []] else []).foldl
      styleInside .plain = { RunStyle.plain with subtext := style.subtext } := by
    cases style.subtext <;> decide
  rw [wrappers, List.foldl_append, foldl_styleInside_eq_union, lowered, List.foldl_append,
    foldl_styleInside_eq_union, raised, List.foldl_append, foldl_styleInside_eq_union,
    foldl_styleInside_spanOf, List.foldl_append, foldl_styleInside_eq_union, bolds, italics]
  simp [RunStyle.union, RunStyle.plain]

/-! ### Reading flows -/

/-- A run put at the end of an unstyled element is read after everything inside
it, in the styles of the run. -/
theorem signsInside_appendRun (inTable : Bool) (run : TextRun) (holder : Node) :
    (appendRun run holder).signsInside inTable .plain =
      holder.signsInside inTable .plain ++ run.signs inTable := by
  have styles := foldl_styleInside_wrappers run.style
  unfold appendRun TextRun.signs
  rw [glyphsOf_eq]
  cases wrapped : wrappers run.style with
  | nil =>
      rw [wrapped] at styles
      rw [appendWrapped, signsInside_appendPieces, ← styles]
      rfl
  | cons outer inner =>
      have bare := Draft.wrappers_new run.style
      rw [wrapped] at styles bare
      rw [appendWrapped, signsInside_appendChild, signs_appendWrapped inTable .plain _ bare, styles]

/-- An element that is neither a line break nor a table nor a formatting element
is read as what is inside it. -/
theorem signs_unformatted {element : Node} {tag : String} (tagged : element.tag = tag)
    (other : tag ∉ "br" :: "table" :: Draft.formattingTags) (inTable : Bool)
    (style : RunStyle) :
    element.signs inTable style =
      element.signsInside inTable style ++ signsOfText inTable style element.tail := by
  have differs : ∀ name ∈ "br" :: "table" :: Draft.formattingTags,
      (element.tag == name) = false := by
    intro name member
    rw [beq_eq_false_iff_ne, tagged]
    rintro rfl
    exact other member
  have unstyled : element.styleInside style = style := by
    simp only [styleInside, differs "em" (by decide), differs "strong" (by decide),
      differs "span" (by decide), differs "sup" (by decide), differs "sub" (by decide),
      Bool.false_and, Bool.or_false]
  rw [signs_eq, unstyled, differs "br" (by decide), differs "table" (by decide)]
  simp

end Markup.Element

namespace Draft

open Markup.Element

theorem signsInside_foldl_appendRun (inTable : Bool) (runs : List TextRun) (holder : Node) :
    (runs.foldl (fun link run => appendRun run link) holder).signsInside inTable .plain =
      holder.signsInside inTable .plain ++ runs.flatMap (·.signs inTable) := by
  induction runs generalizing holder with
  | nil => simp
  | cons run rest inductionHypothesis =>
      rw [List.foldl_cons, inductionHypothesis, signsInside_appendRun, List.flatMap_cons,
        List.append_assoc]

theorem signs_linkNode (inTable : Bool) (address : String) (hint : Option String)
    (runs : List TextRun) :
    (linkNode address hint runs).signs inTable .plain = runs.flatMap (·.signs inTable) := by
  obtain ⟨attributes, titled⟩ := hinted_eq hint (.new () "a" [("href", address)])
  have tag : (linkNode address hint runs).tag = "a" := by
    rw [linkNode_eq_flow, tag_flow, titled]
    rfl
  have tail : (linkNode address hint runs).tail = none := by
    rw [linkNode_eq_flow, tail_flow, titled]
    rfl
  rw [signs_unformatted tag (by decide), tail, linkNode, signsInside_foldl_appendRun, titled]
  simp [signsInside, Element.new, signsAll]

theorem signs_noteMarker (inTable : Bool) (number : Nat) :
    (Pass.noteMarker number).signs inTable .plain = numberSigns inTable number := by
  have tag : (Pass.noteMarker number).tag = "a" := rfl
  rw [signs_unformatted tag (by decide)]
  simp [Pass.noteMarker, signsInside, signsOfText, Element.addClass, Element.set, Element.new,
    signsAll, numberSigns]

theorem signsInside_put (inTable : Bool) (item : Item) (holder : Node) :
    (item.put holder).signsInside inTable .plain =
      holder.signsInside inTable .plain ++ item.signs inTable := by
  cases item with
  | text run => exact signsInside_appendRun inTable run holder
  | link address hint runs =>
      rw [Item.put, signsInside_appendChild, signs_linkNode]
      rfl
  | anchor name =>
      rw [Item.put, signsInside_appendChild]
      rfl
  | image source hint =>
      obtain ⟨attributes, titled⟩ := hinted_eq hint (.new () "img" [("src", source)])
      rw [Item.put, signsInside_appendChild, imageNode, titled]
      rfl
  | marker number =>
      rw [Item.put, signsInside_appendChild, signs_noteMarker]
      rfl

theorem signsInside_flow (inTable : Bool) (items : List Item) (holder : Node) :
    (flow items holder).signsInside inTable .plain =
      holder.signsInside inTable .plain ++ itemSigns inTable items := by
  induction items generalizing holder with
  | nil => simp [itemSigns]
  | cons item rest inductionHypothesis =>
      rw [flow_cons, inductionHypothesis, signsInside_put, List.append_assoc]
      rfl

/-! ### Reading blocks -/

theorem signs_paragraph (inTable : Bool) (paragraph : Paragraph) :
    paragraph.node.signs inTable .plain = paragraph.signs inTable := by
  obtain ⟨attributes, base⟩ := paragraphBase_eq paragraph.alignment
  rw [signs_unformatted (tag_paragraph paragraph) (by decide), tail_paragraph, Paragraph.node,
    signsInside_flow, base]
  simp [signsInside, Element.new, signsAll, Paragraph.signs]

theorem signsAll_paragraphs (inTable : Bool) (paragraphs : List Paragraph) :
    signsAll inTable .plain (paragraphs.map Paragraph.node) =
      paragraphs.flatMap (·.signs inTable) := by
  simp [signsAll_eq_flatMap, List.flatMap_map, signs_paragraph]

theorem signs_cell (cell : Cell) : cell.node.signs true .plain = cell.signs := by
  have other : (if cell.header then "th" else "td") ∉ "br" :: "table" :: formattingTags := by
    cases cell.header <;> decide
  rw [signs_unformatted (tag_cell cell) other, tail_cell, Cell.node, signsInside_append_children,
    signsInside_flow, signsAll_paragraphs]
  simp [signsInside, Table.newCell, Element.new, signsAll, Cell.signs]

theorem signs_heading (items : List Item) :
    (flow items headingBase).signs false .plain = itemSigns false items := by
  have tag : (flow items headingBase).tag = "h2" := tag_flow items headingBase
  rw [signs_unformatted tag (by decide), tail_flow, signsInside_flow]
  simp [signsInside, headingBase, Element.new, signsAll]

theorem signs_row (row : List Cell) :
    (rowNode row).signs true .plain = row.flatMap Cell.signs := by
  have tag : (rowNode row).tag = "tr" := rfl
  rw [signs_unformatted tag (by decide)]
  simp [signsInside, rowNode, Element.new, signsAll_eq_flatMap, List.flatMap_map, signs_cell]

theorem signs_grid (grid : Grid) :
    grid.node.signs false .plain = grid.rows.flatMap (·.flatMap Cell.signs) := by
  have inside : styleInside .plain grid.node = .plain := by
    simp [styleInside, Grid.node, Element.new, RunStyle.plain]
  rw [signs_eq, inside]
  simp [signsInside, Grid.node, Element.new, signsAll_eq_flatMap, List.flatMap_map, signs_row]

theorem signs_note (note : Footnote) :
    note.node.signs false .plain = note.paragraphs.flatMap (·.signs false) := by
  have tag : note.node.tag = "aside" := rfl
  have back : (backNode note.number).signs false .plain = [] := by
    have tag : (backNode note.number).tag = "a" := rfl
    rw [signs_unformatted tag (by decide)]
    rfl
  rw [signs_unformatted tag (by decide)]
  simp [signsInside, Footnote.node, Element.new, signsAll, back, signsAll_paragraphs]

theorem signs_block (block : Block) : block.node.signs false .plain = block.signs := by
  cases block with
  | paragraph single => exact signs_paragraph false single
  | heading items => exact signs_heading items
  | grid table => exact signs_grid table
  | note footnote => exact signs_note footnote

theorem signsInside_section (part : Section) :
    part.node.signsInside false .plain = part.blocks.flatMap Block.signs := by
  simp [signsInside, signsAll_eq_flatMap, List.flatMap_map, signs_block]

/-! ### Reading pages -/

theorem signs_vacant {paragraph : Paragraph} (vacant : paragraph.isVacant = true)
    (inTable : Bool) : paragraph.signs inTable = [] := by
  rw [Paragraph.isVacant, List.isEmpty_iff] at vacant
  simp [Paragraph.signs, vacant, itemSigns]

theorem signs_cell_pruned (cell : Cell) : cell.pruned.signs = cell.signs := by
  rw [Cell.signs, Cell.pruned,
    flatMap_filter_of_nil (fun paragraph vacant => signs_vacant vacant true)]
  rfl

theorem signs_block_pruned (block : Block) : block.pruned.signs = block.signs := by
  cases block with
  | paragraph single => rfl
  | heading items => rfl
  | grid table =>
      simp [Block.pruned, Block.signs, Grid.pruned, List.flatMap_map, signs_cell_pruned]
  | note footnote =>
      exact flatMap_filter_of_nil (fun paragraph vacant => signs_vacant vacant false) _

theorem signs_block_vacant {block : Block} (vacant : block.isVacant = true) :
    block.signs = [] := by
  cases block with
  | paragraph single => exact signs_vacant vacant false
  | _ => cases vacant

theorem signs_eq_told : Part.signs = Part.told Block.signs := by
  funext part
  cases part <;> rfl

theorem signs_closed (part : Section) :
    (Part.closed part).signs = part.blocks.flatMap Block.signs := rfl

/-- Pruning leaves a page as it is read. -/
theorem flatMap_signs_kept (draft : Draft) : draft.kept.flatMap Part.signs = draft.signs := by
  have pruned (block : Block) : block.pruned.signs = block.signs.map id := by
    rw [List.map_id, signs_block_pruned]
  rw [signs_eq_told, flatMap_told_kept (fun _ vacant => signs_block_vacant vacant) pruned,
    List.map_id, ← signs_eq_told]
  simp [signs, signs_closed, blocks]

theorem bodyChildren_page (options : Options) (document : Document) (draft : Draft) :
    (page options document draft).bodyChildren =
      titleHeading options document ++ draft.kept.map Part.node := by
  have noBody : ¬(Page.head options.stylesheets document).isTagged ["body"] = true := by
    have tag : (Page.head options.stylesheets document).tag = "head" := rfl
    rw [Element.isTagged, tag]
    decide
  have isBody : (body options document draft).isTagged ["body"] = true := by
    simp [Element.isTagged]
  rw [bodyChildren, page, assemble, List.filter_cons_of_neg noBody,
    List.filter_cons_of_pos isBody]
  simp [body]

theorem sections_page (options : Options) (document : Document) (draft : Draft) :
    (page options document draft).sections =
      (draft.kept.map Part.node).filter (·.isTagged ["section"]) := by
  have title : (titleHeading options document).filter (·.isTagged ["section"]) = [] := by
    unfold titleHeading
    split <;> rfl
  have inBody : (page options document draft).sections =
      (page options document draft).bodyChildren.filter (·.isTagged ["section"]) := by
    rw [bodyChildren, List.filter_flatMap]
    rfl
  rw [inBody, bodyChildren_page, List.filter_append, title, List.nil_append]

theorem flatMap_sections (parts : List Part) :
    ((parts.map Part.node).filter (·.isTagged ["section"])).flatMap (signsInside false .plain) =
      parts.flatMap Part.signs := by
  induction parts with
  | nil => rfl
  | cons part rest inductionHypothesis =>
      cases part with
      | rule => exact inductionHypothesis
      | closed part =>
          have isSection : (Part.closed part).node.isTagged ["section"] = true := by
            simp [Part.node, Element.isTagged]
          rw [List.map_cons, List.filter_cons_of_pos isSection, List.flatMap_cons,
            inductionHypothesis, List.flatMap_cons, Part.node, signsInside_section]
          rfl

/-- A page is read as the draft that it comes from. -/
theorem pageSigns_page (options : Options) (document : Document) (draft : Draft) :
    (page options document draft).pageSigns = draft.signs := by
  rw [pageSigns, sections_page, flatMap_sections, flatMap_signs_kept]

end Draft

end Folio
