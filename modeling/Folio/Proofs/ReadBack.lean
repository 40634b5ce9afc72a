import Folio.Proofs.Pruning
import Folio.Proofs.Reader

/-!
# Pages are read back

Texts, addresses, names and titles come from the document and can hold anything, but
they only ever become texts and attribute values.  Tags and attribute names are those
that rendering knows; void elements stay empty, and the one style sheet has no end of
a tag in it.  So every element of a page prints plainly, and laying out the page only
changes texts between elements.  A whole page is therefore read back as the tree that
was printed.
-/

namespace Folio.Markup

/-- Tags of elements that can hold text and other elements. -/
def IsOpenTag (tag : String) : Prop :=
  IsName tag ∧ Text.lower tag = tag ∧ tag ∉ voidTags ∧ tag ∉ rawTextTags

instance (tag : String) : Decidable (IsOpenTag tag) := inferInstanceAs (Decidable (_ ∧ _))

/-- Tags of elements that have no content. -/
def IsVoidTag (tag : String) : Prop :=
  IsName tag ∧ Text.lower tag = tag ∧ tag ∈ voidTags ∧ tag ∉ rawTextTags

instance (tag : String) : Decidable (IsVoidTag tag) := inferInstanceAs (Decidable (_ ∧ _))

/-- An element that stays readable whatever text and readable elements are put into it. -/
structure Receptive (element : Node) : Prop where
  isOpen : IsOpenTag element.tag
  settingsNamed : ∀ name ∈ element.attributes.map Prod.fst, IsName name
  below : ∀ child ∈ element.children, Readable child

theorem isName_setAttribute {name : String} (named : IsName name) (value : String)
    {attributes : List (String × String)}
    (settingsNamed : ∀ other ∈ attributes.map Prod.fst, IsName other) :
    ∀ other ∈ (setAttribute name value attributes).map Prod.fst, IsName other := by
  induction attributes with
  | nil => exact List.forall_mem_singleton.mpr named
  | cons setting rest inductionHypothesis =>
      obtain ⟨first, others⟩ := List.forall_mem_cons.mp settingsNamed
      unfold setAttribute
      split
      · exact List.forall_mem_cons.mpr ⟨named, others⟩
      · exact List.forall_mem_cons.mpr ⟨first, inductionHypothesis others⟩

theorem Readable.withTail {element : Node} (readable : Readable element) (tail : Option String) :
    Readable (element.withTail tail) := by
  cases readable with
  | intro plain below =>
      obtain ⟨named, lowered, noScript, settingsNamed, void, style⟩ := plain
      exact .intro ⟨named, lowered, noScript, settingsNamed, void, style⟩ below

theorem Readable.set {element : Node} (readable : Readable element) {name : String}
    (named : IsName name) (value : String) : Readable (element.set name value) := by
  cases readable with
  | intro plain below =>
      obtain ⟨tagNamed, lowered, noScript, settingsNamed, void, style⟩ := plain
      exact .intro ⟨tagNamed, lowered, noScript, isName_setAttribute named value settingsNamed,
        void, style⟩ below

theorem readable_void {tag : String} (isVoid : IsVoidTag tag)
    {attributes : List (String × String)}
    (settingsNamed : ∀ name ∈ attributes.map Prod.fst, IsName name) :
    Readable (.new () tag attributes) := by
  obtain ⟨named, lowered, void, notRaw⟩ := isVoid
  refine .intro ⟨named, lowered, ?_, settingsNamed, fun _ => ⟨rfl, rfl⟩, ?_⟩ ?_
  · rintro rfl
    exact notRaw (by decide)
  · rintro rfl
    exact absurd void (by decide)
  · intro child member
    cases member

namespace Receptive

theorem readable {element : Node} (receptive : Receptive element) : Readable element := by
  obtain ⟨⟨named, lowered, noVoid, notRaw⟩, settingsNamed, below⟩ := receptive
  refine .intro ⟨named, lowered, ?_, settingsNamed, fun void => absurd void noVoid, ?_⟩ below
  · intro isScript
    exact notRaw (isScript ▸ by decide)
  · intro isStyle
    exact absurd (isStyle ▸ by decide) notRaw

theorem new {tag : String} (isOpen : IsOpenTag tag) {attributes : List (String × String)}
    (settingsNamed : ∀ name ∈ attributes.map Prod.fst, IsName name) :
    Receptive (.new () tag attributes) where
  isOpen := isOpen
  settingsNamed := settingsNamed
  below := fun _ member => by cases member

theorem withText {element : Node} (receptive : Receptive element) (text : Option String) :
    Receptive { element with text := text } :=
  ⟨receptive.isOpen, receptive.settingsNamed, receptive.below⟩

theorem withChildren {element : Node} (receptive : Receptive element) {children : List Node}
    (below : ∀ child ∈ children, Readable child) :
    Receptive { element with children := children } :=
  ⟨receptive.isOpen, receptive.settingsNamed, below⟩

theorem set {element : Node} (receptive : Receptive element) {name : String}
    (named : IsName name) (value : String) : Receptive (element.set name value) :=
  ⟨receptive.isOpen, isName_setAttribute named value receptive.settingsNamed, receptive.below⟩

theorem addClass {element : Node} (receptive : Receptive element) (name : String) :
    Receptive (element.addClass name) :=
  receptive.set (by decide) _

theorem foldl_addClass (names : List String) {element : Node} (receptive : Receptive element) :
    Receptive (names.foldl Element.addClass element) := by
  induction names generalizing element with
  | nil => exact receptive
  | cons name rest inductionHypothesis => exact inductionHypothesis (receptive.addClass name)

theorem appendChild {element child : Node} (receptive : Receptive element)
    (readable : Readable child) : Receptive (element.appendChild child) := by
  refine receptive.withChildren fun other member => ?_
  rcases List.mem_append.mp member with before | added
  · exact receptive.below other before
  · exact List.mem_singleton.mp added ▸ readable

theorem of_shell {element grown : Node} (receptive : Receptive element)
    (same : grown.shell = element.shell) (below : ∀ child ∈ grown.children, Readable child) :
    Receptive grown where
  isOpen := Draft.tag_eq_of_shell same ▸ receptive.isOpen
  settingsNamed := by
    have attributesSame : grown.shell.attributes = element.shell.attributes :=
      congrArg Element.attributes same
    intro name member
    exact receptive.settingsNamed name (attributesSame ▸ member)
  below := below

end Receptive

end Folio.Markup

namespace Folio.Draft

open Markup Render

/-! ### Flows -/

theorem receptive_new {tag : String} (isOpen : IsOpenTag tag) : Receptive (.new () tag []) :=
  .new isOpen (by simp)

theorem receptive_appendPieces {holder : Node} (receptive : Receptive holder)
    (pieces : List String) : Receptive (appendPieces holder pieces) := by
  refine receptive.of_shell (shell_appendPieces holder pieces) ?_
  refine forall_children_appendPieces (fun _ tail readable => readable.withTail tail)
    (fun piece => ?_) receptive.below pieces
  have bare : Readable (.new () "br" []) := readable_void (by decide) (by decide)
  exact bare.withTail (some piece)

theorem receptive_appendWrapped (pieces : List String) {wrappers : List Node}
    (receptives : ∀ wrapper ∈ wrappers, Receptive wrapper) {holder : Node}
    (receptive : Receptive holder) : Receptive (appendWrapped pieces wrappers holder) := by
  induction wrappers generalizing holder with
  | nil => exact receptive_appendPieces receptive pieces
  | cons wrapper inner inductionHypothesis =>
      have filled := inductionHypothesis
        (fun other member => receptives other (List.mem_cons_of_mem wrapper member))
        (receptives wrapper List.mem_cons_self)
      exact receptive.appendChild filled.readable

theorem receptive_wrapper (style : RunStyle) :
    ∀ wrapper ∈ wrappers style, Receptive wrapper := by
  have isOpen : ∀ tag ∈ formattingTags, IsOpenTag tag := by decide
  refine forall_wrappers (fun tag formatting => ?_) (fun classes => ?_) style
  · exact receptive_new (isOpen tag formatting)
  · exact Receptive.foldl_addClass classes (receptive_new (isOpen "span" (by decide)))

theorem receptive_appendRun (run : TextRun) {holder : Node} (receptive : Receptive holder) :
    Receptive (appendRun run holder) :=
  receptive_appendWrapped _ (receptive_wrapper run.style) receptive

theorem receptive_hinted (hint : Option String) {element : Node} (receptive : Receptive element) :
    Receptive (hinted hint element) := by
  unfold hinted
  split
  · exact receptive
  · exact receptive
  · exact receptive.set (by decide) _

theorem receptive_linkNode (address : String) (hint : Option String) (runs : List TextRun) :
    Receptive (linkNode address hint runs) := by
  have opened : Receptive (hinted hint (.new () "a" [("href", address)])) :=
    receptive_hinted hint (.new (by decide) (by decide : ∀ name ∈ ["href"], IsName name))
  unfold linkNode
  generalize hinted hint (.new () "a" [("href", address)]) = link at opened
  induction runs generalizing link with
  | nil => exact opened
  | cons run rest inductionHypothesis =>
      exact inductionHypothesis _ (receptive_appendRun run opened)

theorem readable_imageNode (source : String) (hint : Option String) :
    Readable (imageNode source hint) := by
  have opened : Readable (.new () "img" [("src", source)]) :=
    readable_void (by decide) (by decide : ∀ name ∈ ["src"], IsName name)
  unfold imageNode hinted
  split
  · exact opened
  · exact opened
  · exact opened.set (by decide) _

theorem receptive_anchorNode (name : String) : Receptive (anchorNode name) :=
  .new (by decide) (by decide : ∀ name ∈ ["name"], IsName name)

theorem receptive_noteLink (name address className : String) :
    Receptive ((Element.new () "a" [("name", name), ("href", address)]).addClass className) := by
  refine Receptive.addClass (.new (by decide) ?_) className
  exact (by decide : ∀ name ∈ ["name", "href"], IsName name)

theorem receptive_put (item : Item) {holder : Node} (receptive : Receptive holder) :
    Receptive (item.put holder) := by
  cases item with
  | text run => exact receptive_appendRun run receptive
  | link address hint runs =>
      exact receptive.appendChild (receptive_linkNode address hint runs).readable
  | anchor name => exact receptive.appendChild (receptive_anchorNode name).readable
  | image source hint => exact receptive.appendChild (readable_imageNode source hint)
  | marker number =>
      exact receptive.appendChild ((receptive_noteLink _ _ _).withText _).readable

theorem receptive_flow (items : List Item) {holder : Node} (receptive : Receptive holder) :
    Receptive (flow items holder) := by
  induction items generalizing holder with
  | nil => exact receptive
  | cons item rest inductionHypothesis => exact inductionHypothesis (receptive_put item receptive)

/-! ### Blocks and sections -/

theorem receptive_aligned (alignment : Alignment) {element : Node} (receptive : Receptive element) :
    Receptive (aligned alignment element) := by
  unfold aligned
  split
  · exact receptive
  · exact receptive.addClass _

theorem readable_paragraph (paragraph : Paragraph) : Readable paragraph.node :=
  (receptive_flow paragraph.items
    (receptive_aligned paragraph.alignment (receptive_new (by decide)))).readable

theorem forall_readable_map {Thing : Type} {node : Thing → Node}
    (readable : ∀ thing, Readable (node thing)) (things : List Thing) :
    ∀ child ∈ things.map node, Readable child := by
  intro child member
  obtain ⟨thing, _, rfl⟩ := List.mem_map.mp member
  exact readable thing

theorem readable_cell (cell : Cell) : Readable cell.node := by
  have opened : Receptive (Table.newCell cell.header) := by
    cases cell.header
    · exact receptive_new (by decide)
    · exact receptive_new (by decide)
  have led := receptive_flow cell.lead opened
  refine (led.withChildren ?_).readable
  exact List.forall_mem_append.mpr
    ⟨led.below, forall_readable_map readable_paragraph cell.paragraphs⟩

theorem readable_row (row : List Cell) : Readable (rowNode row) :=
  ((receptive_new (by decide)).withChildren (forall_readable_map readable_cell row)).readable

theorem readable_grid (grid : Grid) : Readable grid.node :=
  ((receptive_new (by decide)).withChildren (forall_readable_map readable_row grid.rows)).readable

theorem readable_note (note : Footnote) : Readable note.node := by
  refine ((receptive_new (by decide)).withChildren ?_).readable
  exact List.forall_mem_cons.mpr
    ⟨(receptive_noteLink _ _ _).readable, forall_readable_map readable_paragraph note.paragraphs⟩

theorem readable_block (block : Block) : Readable block.node := by
  cases block with
  | paragraph single => exact readable_paragraph single
  | heading items => exact (receptive_flow items (receptive_new (by decide))).readable
  | grid table => exact readable_grid table
  | note footnote => exact readable_note footnote

theorem readable_part (part : Part) : Readable part.node := by
  cases part with
  | rule => exact readable_void (by decide) (by decide)
  | closed part =>
      have opened : Receptive (aligned part.alignment emptySection) :=
        receptive_aligned part.alignment (receptive_new (by decide))
      exact (opened.withChildren (forall_readable_map readable_block part.blocks)).readable

/-! ### Pages -/

theorem readable_titled (tag title : String) (isOpen : IsOpenTag tag) :
    Readable { Element.new () tag [] with text := some title } :=
  ((receptive_new isOpen).withText (some title)).readable

theorem readable_property (name value : String) : Readable (Page.property name value) :=
  readable_void (by decide) (by decide : ∀ name ∈ ["property", "content"], IsName name)

theorem readable_styleSheet :
    Readable { Element.new () "style" [] with text := some Style.sheet } := by
  refine .intro ⟨by decide, by decide, by decide, by decide, by decide, fun _ => ⟨rfl, ?_⟩⟩ ?_
  · change '>' ∉ Style.sheet.toList
    simp only [Style.sheet, String.toList_append, List.mem_append, not_or]
    decide +kernel
  · intro child member
    cases member

theorem readable_head (stylesheets : List String) (document : Document) :
    Readable (Page.head stylesheets document) := by
  have charset : Readable (.new () "meta"
      [("http-equiv", "Content-Type"), ("content", "text/html; charset=utf-8")]) :=
    readable_void (by decide) (by decide)
  have link (address : String) :
      Readable (.new () "link" [("rel", "stylesheet"), ("href", address)]) :=
    readable_void (by decide) (by decide : ∀ name ∈ ["rel", "href"], IsName name)
  refine ((receptive_new (by decide)).withChildren ?_).readable
  exact forall_head charset readable_styleSheet link
    (fun text => readable_titled "title" text (by decide)) readable_property stylesheets document

theorem readable_titleHeading (options : Options) (document : Document) :
    ∀ child ∈ titleHeading options document, Readable child := by
  unfold titleHeading
  split
  · exact List.forall_mem_singleton.mpr (readable_titled "h1" document.title (by decide))
  · exact List.forall_mem_nil _

theorem readable_body (options : Options) (document : Document) (draft : Draft) :
    Readable (body options document draft) := by
  have opened : Receptive (bodyWith options.bodyClasses) :=
    Receptive.foldl_addClass options.bodyClasses (receptive_new (by decide))
  refine (opened.withChildren ?_).readable
  exact List.forall_mem_append.mpr
    ⟨readable_titleHeading options document, forall_readable_map readable_part draft.kept⟩

theorem readable_page (options : Options) (document : Document) (draft : Draft) :
    Readable (page options document draft) := by
  refine ((receptive_new (by decide)).withChildren ?_).readable
  exact List.forall_mem_cons.mpr
    ⟨readable_head options.stylesheets document,
      List.forall_mem_singleton.mpr (readable_body options document draft)⟩

end Folio.Draft

namespace Folio.Markup

/-! ### Laying out and reading back -/

theorem forall_readable_layOutAll (step : String) {children : List Node}
    (below : ∀ child ∈ children, ∀ level, Readable (child.layOut step level)) (level : Int) :
    ∀ child ∈ Element.layOutAll step level children, Readable child := by
  induction children with
  | nil => exact List.forall_mem_nil _
  | cons child rest inductionHypothesis =>
      obtain ⟨first, others⟩ := List.forall_mem_cons.mp below
      exact List.forall_mem_cons.mpr
        ⟨(first (level + 1)).withTail _, inductionHypothesis others⟩

/-- Laying out only changes texts in block containers. -/
theorem readable_layOut (step : String) {element : Node} (readable : Readable element)
    (level : Int) : Readable (element.layOut step level) := by
  induction readable generalizing level with
  | @intro element plain below inductionHypothesis =>
      obtain ⟨mark, tag, attributes, text, tail, children⟩ := element
      unfold Element.layOut
      split
      · rename_i laidOut
        have container : tag ∈ blockContainers :=
          List.contains_iff_mem.mp ((Bool.and_eq_true _ _).mp laidOut).1
        have areOpen : ∀ tag ∈ blockContainers, IsOpenTag tag := by decide
        have opened : Receptive ⟨mark, tag, attributes, fillSlot (lineIndent step (level + 1)) text,
            tail, Element.layOutAll step level children⟩ :=
          ⟨areOpen tag container, plain.settingsNamed,
            forall_readable_layOutAll step inductionHypothesis level⟩
        exact opened.readable
      · exact .intro plain below

theorem readable_prepareNode (options : Options) {element : Node} (readable : Readable element) :
    Readable (Page.prepareNode options element) := by
  unfold Page.prepareNode
  split
  · exact readable_layOut Page.indentStep (readable.withTail none) 0
  · exact readable.withTail none

end Folio.Markup

namespace Folio

open Markup Render

/-- A whole page is read back from its output: behind the document type line, a reader
takes every character and returns the tree that was printed, with the same elements,
attributes, texts and tails. -/
theorem render_readsBack {options : Options} {document : Document} {output : String}
    (whole : options.bodyOnly = false) (rendered : render options document = .ok output) :
    ∃ tree markup, renderTree options document = .ok tree ∧
      output = "<!DOCTYPE html>\n" ++ markup ∧
      Reader.read markup = some (Page.prepare options tree).compact := by
  obtain ⟨tree, treeRendered, rfl⟩ : ∃ tree, renderTree options document = .ok tree ∧
      Page.serialize options tree = output := by
    unfold render at rendered
    cases treeRendered : renderTree options document with
    | error failure =>
        rw [treeRendered] at rendered
        cases rendered
    | ok tree =>
        rw [treeRendered] at rendered
        exact ⟨tree, rfl, Except.ok.inj rendered⟩
  obtain ⟨draft, _, rfl⟩ := Draft.renderTree_ok treeRendered
  have readable := Draft.readable_page options document draft
  have prepared : Page.prepare options (Draft.page options document draft) =
      Page.prepareNode options (Draft.page options document draft) := by
    rw [Page.prepare, whole]
    rfl
  refine ⟨_, (Page.prepareNode options (Draft.page options document draft)).print, treeRendered,
    ?_, ?_⟩
  · rw [Page.serialize, prepared, Page.printPrepared, Page.joinPrinted, Page.printedElements, whole]
    simp [String.join]
  · rw [prepared]
    exact Reader.read_print (readable_prepareNode options readable)

/-- A document that has markup in every text that it can show. -/
def markedUp : Document where
  lines :=
    [.run ⟨"a < b & \"c\" > </p>\n&amp;", { RunStyle.plain with mono := true }, false⟩,
      .directive { Directive.plain .hint with content := .text "\" onclick=\"x" },
      .directive { Directive.plain .link with content := .text "?a=1&b=2\"><script>" },
      .run ⟨"</a><style>", .plain, false⟩,
      .directive { Directive.plain .anchor with content := .text "\">" },
      .directive { Directive.plain .image with content := .text "&quot;" }]
  metadata := [("title", ["</title>"]), ("description", ["\">", "&"])]
  showsMetadata := true

theorem render_readsBack_markedUp :
    Options.standard.bodyOnly = false ∧
      ∃ output, render .standard markedUp = .ok output ∧
        ∃ tree markup, renderTree .standard markedUp = .ok tree ∧
          output = "<!DOCTYPE html>\n" ++ markup ∧
          Reader.read markup = some (Page.prepare .standard tree).compact := by
  obtain ⟨output, rendered⟩ : ∃ output, render .standard markedUp = .ok output := by
    rw [render, Draft.renderTree_eq_page]
    exact ⟨_, rfl⟩
  exact ⟨rfl, output, rendered, render_readsBack rfl rendered⟩

end Folio
