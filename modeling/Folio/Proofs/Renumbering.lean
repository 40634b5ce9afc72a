import Folio.Proofs.Footnotes

/-!
# Raising the numbers of notes

The number of a note is written in three places: the text of its reference, and the
names and addresses by which reference and note lead to each other.  Raising all
these numerals by a constant turns the markup of a part of a page into what the part
would be if as many notes came before it, and changes nothing else.
-/

namespace Folio

open Markup Render

/-! ### Numerals at the end of a text -/

/-- A text with the numeral at its end raised, if it ends in one. -/
def raiseNumeral (shift : Nat) (text : String) : String :=
  let digits := (text.toList.reverse.takeWhile Char.isDigit).reverse
  let front := (text.toList.reverse.dropWhile Char.isDigit).reverse
  if digits = [] then text
  else String.ofList front ++ toString (Nat.ofDigitChars 10 digits 0 + shift)

theorem raiseNumeral_append (shift : Nat) {front : String}
    (ends : front.toList.getLast?.any Char.isDigit = false) (number : Nat) :
    raiseNumeral shift (front ++ toString number) = front ++ toString (number + shift) := by
  have digits : ∀ c ∈ (Nat.toDigits 10 number).reverse, c.isDigit = true := fun c member =>
    Nat.isDigit_of_mem_toDigits (b := 10) (by decide) (by decide) (List.mem_reverse.mp member)
  have begins : ∀ c ∈ front.toList.reverse.head?, c.isDigit = false := by
    intro c isHead
    rw [List.head?_reverse] at isHead
    rwa [isHead] at ends
  have split : (front ++ toString number).toList.reverse =
      (Nat.toDigits 10 number).reverse ++ front.toList.reverse := by
    simp
  have taken : front.toList.reverse.takeWhile Char.isDigit = [] := by
    cases rest : front.toList.reverse with
    | nil => rfl
    | cons c others => simp [begins c (by simp [rest])]
  have dropped : front.toList.reverse.dropWhile Char.isDigit = front.toList.reverse := by
    cases rest : front.toList.reverse with
    | nil => rfl
    | cons c others => simp [begins c (by simp [rest])]
  rw [raiseNumeral, split, List.takeWhile_append_of_pos digits, taken,
    List.dropWhile_append_of_pos digits, dropped]
  simp [Nat.ofDigitChars_ten_toDigits]

namespace Markup.Element

/-! ### Renumbering a tree -/

def renumberSetting (shift : Nat) (setting : String × String) : String × String :=
  if setting.1 = "name" ∨ setting.1 = "href" then (setting.1, raiseNumeral shift setting.2)
  else setting

/-- A link to or from a note with its numerals raised; anything else as it is. -/
def renumberLink (shift : Nat) (element : Node) : Node :=
  if element.isNoteLink then
    { element with
      text := element.text.map (raiseNumeral shift)
      attributes := element.attributes.map (renumberSetting shift) }
  else element

mutual

/-- Raise the numbers of all notes in a tree. -/
def renumber (shift : Nat) : Node → Node
  | ⟨mark, tag, attributes, text, tail, children⟩ =>
      renumberLink shift ⟨mark, tag, attributes, text, tail, renumberAll shift children⟩

def renumberAll (shift : Nat) : List Node → List Node
  | [] => []
  | child :: rest => renumber shift child :: renumberAll shift rest

end

theorem renumberAll_eq_map (shift : Nat) (children : List Node) :
    renumberAll shift children = children.map (renumber shift) := by
  induction children with
  | nil => rfl
  | cons child rest inductionHypothesis => rw [renumberAll, inductionHypothesis, List.map_cons]

theorem renumber_eq (shift : Nat) (element : Node) :
    element.renumber shift =
      renumberLink shift { element with children := element.children.map (renumber shift) } := by
  cases element
  rw [renumber, renumberAll_eq_map]

/-- Whether an element is a link to or from a note is seen from its tag and its
attributes. -/
theorem isNoteLink_of_shell {first second : Node} (same : first.shell = second.shell) :
    first.isNoteLink = second.isNoteLink := by
  change first.shell.isNoteLink = second.shell.isNoteLink
  rw [same]

theorem isNoteLink_of_tag {element : Node} (other : element.tag ≠ "a") :
    element.isNoteLink = false := by
  simp [isNoteLink, isReference, isBack, isTagged, other]

/-- An element that is no link to or from a note is renumbered inside. -/
theorem renumber_of_plain {element : Node} (plain : element.isNoteLink = false) (shift : Nat) :
    element.renumber shift =
      { element with children := element.children.map (renumber shift) } := by
  have inside : Element.isNoteLink
      { element with children := element.children.map (renumber shift) } = false := plain
  rw [renumber_eq, renumberLink, inside]
  rfl

theorem renumberLink_withTail (shift : Nat) (element : Node) (tail : Option String) :
    renumberLink shift (element.withTail tail) = (renumberLink shift element).withTail tail := by
  have same : (element.withTail tail).isNoteLink = element.isNoteLink := rfl
  rw [renumberLink, renumberLink, same]
  split <;> rfl

theorem renumber_withTail (shift : Nat) (element : Node) (tail : Option String) :
    (element.withTail tail).renumber shift = (element.renumber shift).withTail tail := by
  rw [renumber_eq, renumber_eq, ← renumberLink_withTail]
  rfl

theorem tail_renumber (shift : Nat) (element : Node) :
    (element.renumber shift).tail = element.tail := by
  rw [renumber_eq, renumberLink]
  split <;> rfl

theorem renumber_appendChild {holder : Node} (plain : holder.isNoteLink = false) (shift : Nat)
    (child : Node) :
    (holder.appendChild child).renumber shift =
      (holder.renumber shift).appendChild (child.renumber shift) := by
  have grown : (holder.appendChild child).isNoteLink = false := plain
  rw [renumber_of_plain plain, renumber_of_plain grown]
  simp [appendChild]

theorem renumber_appendText {holder : Node} (plain : holder.isNoteLink = false) (shift : Nat)
    (addition : String) :
    (holder.appendText addition).renumber shift =
      (holder.renumber shift).appendText addition := by
  have grown : (holder.appendText addition).isNoteLink = false :=
    (isNoteLink_of_shell (Draft.shell_appendText holder addition)).trans plain
  rw [renumber_of_plain plain, renumber_of_plain grown]
  rcases List.eq_nil_or_concat holder.children with empty | ⟨earlier, last, split⟩
  · rw [Draft.appendText_of_no_children empty, Draft.appendText_of_no_children (by simp [empty])]
  · rw [List.concat_eq_append] at split
    have renumbered : Element.children
        { holder with children := holder.children.map (renumber shift) } =
          earlier.map (renumber shift) ++ [last.renumber shift] := by
      simp [split]
    rw [Draft.appendText_of_children split, Draft.appendText_of_children renumbered]
    simp [renumber_withTail, tail_renumber]

theorem renumber_of_childless {element : Node} (plain : element.isNoteLink = false)
    (childless : element.children = []) (shift : Nat) : element.renumber shift = element := by
  rw [renumber_of_plain plain, childless]
  cases element
  cases childless
  rfl

theorem renumber_appendPieces {holder : Node} (plain : holder.isNoteLink = false) (shift : Nat)
    (pieces : List String) :
    (appendPieces holder pieces).renumber shift = appendPieces (holder.renumber shift) pieces := by
  cases pieces with
  | nil => rfl
  | cons first rest =>
      have begun : (holder.appendText first).isNoteLink = false :=
        (isNoteLink_of_shell (Draft.shell_appendText holder first)).trans plain
      have same := renumber_appendText plain shift first
      rw [renumber_of_plain begun] at same
      have broken : (rest.map lineBreak).map (renumber shift) = rest.map lineBreak := by
        rw [List.map_map]
        refine List.map_congr_left fun piece _ => ?_
        exact renumber_of_childless (isNoteLink_of_tag (by simp [lineBreak, Element.new])) rfl shift
      have grown : (appendPieces holder (first :: rest)).isNoteLink = false := begun
      rw [renumber_of_plain grown]
      simp only [appendPieces, List.map_append, broken, ← same]

theorem renumber_appendWrapped {wrappers : List Node}
    (plainWrappers : ∀ wrapper ∈ wrappers, wrapper.isNoteLink = false ∧ wrapper.children = [])
    {holder : Node} (plain : holder.isNoteLink = false) (shift : Nat) (pieces : List String) :
    (appendWrapped pieces wrappers holder).renumber shift =
      appendWrapped pieces wrappers (holder.renumber shift) := by
  induction wrappers generalizing holder with
  | nil => exact renumber_appendPieces plain shift pieces
  | cons wrapper inner inductionHypothesis =>
      obtain ⟨plainWrapper, childless⟩ := plainWrappers wrapper List.mem_cons_self
      have inside := inductionHypothesis
        (fun other member => plainWrappers other (List.mem_cons_of_mem wrapper member)) plainWrapper
      rw [appendWrapped, renumber_appendChild plain, inside,
        renumber_of_childless plainWrapper childless]
      rfl

/-- A run has no note in it. -/
theorem renumber_appendRun {holder : Node} (plain : holder.isNoteLink = false) (shift : Nat)
    (run : TextRun) :
    (appendRun run holder).renumber shift = appendRun run (holder.renumber shift) := by
  refine renumber_appendWrapped (fun wrapper member => ?_) plain shift (Text.linesOf run.text)
  obtain ⟨tag, formatting, attributes, rfl⟩ := Draft.wrappers_new run.style wrapper member
  refine ⟨isNoteLink_of_tag ?_, rfl⟩
  rintro rfl
  simp [Draft.formattingTags] at formatting

end Markup.Element

namespace Draft

open Markup.Element

/-! ### Renumbering a draft -/

def Item.raise (shift : Nat) : Item → Item
  | .marker number => .marker (number + shift)
  | item => item

def Paragraph.raise (shift : Nat) (paragraph : Paragraph) : Paragraph :=
  { paragraph with items := paragraph.items.map (Item.raise shift) }

def Cell.raise (shift : Nat) (cell : Cell) : Cell :=
  ⟨cell.header, cell.lead.map (Item.raise shift), cell.paragraphs.map (Paragraph.raise shift)⟩

def Grid.raise (shift : Nat) (table : Grid) : Grid :=
  { table with rows := table.rows.map (·.map (Cell.raise shift)) }

def Footnote.raise (shift : Nat) (footnote : Footnote) : Footnote :=
  ⟨footnote.number + shift, footnote.paragraphs.map (Paragraph.raise shift)⟩

def Block.raise (shift : Nat) : Block → Block
  | .paragraph single => .paragraph (single.raise shift)
  | .heading items => .heading (items.map (Item.raise shift))
  | .grid table => .grid (table.raise shift)
  | .note footnote => .note (footnote.raise shift)

def Section.raise (shift : Nat) (part : Section) : Section :=
  { part with blocks := part.blocks.map (Block.raise shift) }

def Part.raise (shift : Nat) : Part → Part
  | .rule => .rule
  | .closed part => .closed (part.raise shift)

/-! ### Renumbered markup -/

theorem noteMarker_eq (number : Nat) :
    Pass.noteMarker number =
      ⟨(), "a", [("name", "note-return-" ++ toString number), ("href", "#note-" ++ toString number),
        ("class", "to-note")], some ("" ++ toString number), none, []⟩ := by
  rw [String.empty_append]
  rfl

theorem backNode_eq (number : Nat) :
    backNode number =
      ⟨(), "a", [("name", "note-" ++ toString number), ("href", "#note-return-" ++ toString number),
        ("class", "from-note")], none, none, []⟩ := rfl

theorem renumber_noteMarker (shift number : Nat) :
    (Pass.noteMarker number).renumber shift = Pass.noteMarker (number + shift) := by
  have link : (Pass.noteMarker number).isNoteLink = true := by
    simp [isNoteLink, isReference_noteMarker]
  rw [noteMarker_eq] at link ⊢
  rw [renumber_eq, List.map_nil, renumberLink, if_pos link, noteMarker_eq]
  simp only [List.map_cons, List.map_nil, Option.map_some, renumberSetting, true_or, or_true,
    if_true]
  rw [raiseNumeral_append shift (by decide), raiseNumeral_append shift (by decide),
    raiseNumeral_append shift (by decide)]
  rfl

theorem renumber_backNode (shift number : Nat) :
    (backNode number).renumber shift = backNode (number + shift) := by
  have link : (backNode number).isNoteLink = true := by
    simp [isNoteLink, isBack_backNode]
  rw [backNode_eq] at link ⊢
  rw [renumber_eq, List.map_nil, renumberLink, if_pos link, backNode_eq]
  simp only [List.map_cons, List.map_nil, Option.map_none, renumberSetting, true_or, or_true,
    if_true]
  rw [raiseNumeral_append shift (by decide), raiseNumeral_append shift (by decide)]
  rfl

/-- Links and images have neither class nor children before anything is put into
them. -/
theorem renumber_hinted (shift : Nat) (hint : Option String) (tag : String)
    {attributes : List (String × String)} (classless : attributes.lookup "class" = none) :
    (hinted hint (.new () tag attributes)).isNoteLink = false ∧
      (hinted hint (.new () tag attributes)).renumber shift =
        hinted hint (.new () tag attributes) := by
  have plain : (hinted hint (.new () tag attributes)).isNoteLink = false := by
    refine isNoteLink_of_classless ?_
    rw [get?_hinted (by decide)]
    exact classless
  refine ⟨plain, renumber_of_childless plain ?_ shift⟩
  obtain ⟨titled, same⟩ := hinted_eq hint (.new () tag attributes)
  rw [same]
  rfl

theorem renumber_linkNode (shift : Nat) (address : String) (hint : Option String)
    (runs : List TextRun) :
    (linkNode address hint runs).renumber shift = linkNode address hint runs := by
  have foldl_renumber {holder : Node} (plain : holder.isNoteLink = false) :
      (runs.foldl (fun link run => appendRun run link) holder).renumber shift =
        runs.foldl (fun link run => appendRun run link) (holder.renumber shift) := by
    induction runs generalizing holder with
    | nil => rfl
    | cons run rest inductionHypothesis =>
        have grown : (appendRun run holder).isNoteLink = false :=
          (isNoteLink_of_shell (shell_appendRun run holder)).trans plain
        rw [List.foldl_cons, inductionHypothesis grown, renumber_appendRun plain, List.foldl_cons]
  have classless : [("href", address)].lookup "class" = none := rfl
  obtain ⟨plain, same⟩ := renumber_hinted shift hint "a" classless
  rw [linkNode, foldl_renumber plain, same]

theorem renumber_put (shift : Nat) (item : Item) {holder : Node}
    (plain : holder.isNoteLink = false) :
    (item.put holder).renumber shift = (item.raise shift).put (holder.renumber shift) := by
  cases item with
  | text run => exact renumber_appendRun plain shift run
  | link address hint runs =>
      rw [Item.put, renumber_appendChild plain, renumber_linkNode]
      rfl
  | anchor name =>
      have same : (anchorNode name).renumber shift = anchorNode name :=
        renumber_of_childless (isNoteLink_of_classless rfl) rfl shift
      rw [Item.put, renumber_appendChild plain, same]
      rfl
  | image source hint =>
      have same : (imageNode source hint).renumber shift = imageNode source hint :=
        (renumber_hinted shift hint "img" rfl).2
      rw [Item.put, renumber_appendChild plain, same]
      rfl
  | marker number =>
      rw [Item.put, renumber_appendChild plain, renumber_noteMarker]
      rfl

theorem renumber_flow (shift : Nat) (items : List Item) {holder : Node}
    (plain : holder.isNoteLink = false) :
    (flow items holder).renumber shift =
      flow (items.map (Item.raise shift)) (holder.renumber shift) := by
  induction items generalizing holder with
  | nil => rfl
  | cons item rest inductionHypothesis =>
      have grown : (item.put holder).isNoteLink = false :=
        (isNoteLink_of_shell (shell_put item holder)).trans plain
      rw [flow_cons, inductionHypothesis grown, renumber_put shift item plain, List.map_cons,
        flow_cons]

theorem renumber_paragraph (shift : Nat) (paragraph : Paragraph) :
    paragraph.node.renumber shift = (paragraph.raise shift).node := by
  have plain : (paragraphBase paragraph.alignment).isNoteLink = false := by
    obtain ⟨attributes, same⟩ := paragraphBase_eq paragraph.alignment
    rw [same]
    exact isNoteLink_of_tag (by simp [Element.new])
  rw [Paragraph.node, renumber_flow shift _ plain,
    renumber_of_childless plain (children_paragraphBase _)]
  rfl

theorem map_renumber_paragraphs (shift : Nat) (paragraphs : List Paragraph) :
    (paragraphs.map Paragraph.node).map (renumber shift) =
      (paragraphs.map (Paragraph.raise shift)).map Paragraph.node := by
  simp [renumber_paragraph]

theorem renumber_cell (shift : Nat) (cell : Cell) :
    cell.node.renumber shift = (cell.raise shift).node := by
  have plainCell : (Table.newCell cell.header).isNoteLink = false := by
    cases cell.header <;> exact isNoteLink_of_tag (by simp [Table.newCell, Element.new])
  have plainFlow : (flow cell.lead (Table.newCell cell.header)).isNoteLink = false :=
    (isNoteLink_of_shell (shell_flow cell.lead _)).trans plainCell
  have plain : cell.node.isNoteLink = false := plainFlow
  have lead := renumber_flow shift cell.lead plainCell
  rw [renumber_of_plain plainFlow, renumber_of_childless plainCell rfl] at lead
  have raised : (cell.raise shift).node =
      { flow (cell.lead.map (Item.raise shift)) (Table.newCell cell.header) with
        children :=
          (flow (cell.lead.map (Item.raise shift)) (Table.newCell cell.header)).children ++
            (cell.paragraphs.map (Paragraph.raise shift)).map Paragraph.node } := rfl
  rw [renumber_of_plain plain, raised, ← lead, ← map_renumber_paragraphs]
  simp [Cell.node]

theorem renumber_row (shift : Nat) (row : List Cell) :
    (rowNode row).renumber shift = rowNode (row.map (Cell.raise shift)) := by
  have plain : (rowNode row).isNoteLink = false :=
    isNoteLink_of_tag (by simp [rowNode, Element.new])
  rw [renumber_of_plain plain]
  simp [rowNode, renumber_cell]

theorem renumber_block (shift : Nat) (block : Block) :
    block.node.renumber shift = (block.raise shift).node := by
  cases block with
  | paragraph single => exact renumber_paragraph shift single
  | heading items =>
      have plain : headingBase.isNoteLink = false := isNoteLink_of_tag (by decide)
      rw [Block.node, renumber_flow shift items plain, renumber_of_childless plain rfl]
      rfl
  | grid table =>
      have plain : table.node.isNoteLink = false :=
        isNoteLink_of_tag (by simp [Grid.node, Element.new])
      rw [Block.node, renumber_of_plain plain]
      simp [Grid.node, renumber_row, Block.raise, Block.node, Grid.raise]
  | note footnote =>
      have plain : footnote.node.isNoteLink = false :=
        isNoteLink_of_tag (by simp [Footnote.node, Element.new])
      rw [Block.node, renumber_of_plain plain, Footnote.node]
      simp [renumber_backNode, renumber_paragraph, Block.raise, Block.node, Footnote.node,
        Footnote.raise]

/-- The markup of a part whose notes have higher numbers. -/
theorem renumber_part (shift : Nat) (part : Part) :
    part.node.renumber shift = (part.raise shift).node := by
  cases part with
  | rule => exact renumber_of_childless (isNoteLink_of_tag (by decide)) rfl shift
  | closed part =>
      have plain : part.node.isNoteLink = false := isNoteLink_of_tag (by simp)
      rw [Part.node, renumber_of_plain plain]
      simp [Section.node, Part.raise, Part.node, Section.raise, renumber_block]

end Draft

end Folio
