import Folio.Proofs.Flow

/-!
# Inline content

What may stand in a paragraph, a heading or in front of the paragraphs of a
cell: text, line breaks, formatting elements nested in one fixed order, anchors
that hold nothing but formatted text, and images.  Every flow is made of these,
so a search for a block element never ends inside a flow.
-/

namespace Folio.Draft

open Markup Render

/-- The tags of formatting elements, from the outside in. -/
def formattingTags : List String := ["em", "strong", "span", "sup", "sub"]

/-- The tags of all elements in a flow. -/
def inlineTags : List String := "br" :: "a" :: "img" :: formattingTags

/-- A line break, or a formatting element with one of the given tags that holds
only line breaks and elements with tags further down the list. -/
inductive Formatted : List String → Node → Prop
  | lineBreak {tags : List String} {element : Node} (tagged : element.tag = "br")
      (textless : element.text = none) (childless : element.children = []) :
      Formatted tags element
  | wrapped {tags inner : List String} {element : Node} (outer : List String)
      (split : tags = outer ++ element.tag :: inner)
      (below : ∀ child ∈ element.children, Formatted inner child) :
      Formatted tags element

def IsAnchor (element : Node) : Prop :=
  element.tag = "a" ∧ ∀ child ∈ element.children, Formatted formattingTags child

def IsImage (element : Node) : Prop :=
  element.tag = "img" ∧ element.text = none ∧ element.children = []

/-- What stands in a flow. -/
def IsInline (element : Node) : Prop :=
  Formatted formattingTags element ∨ IsAnchor element ∨ IsImage element

/-! ### Tails do not matter -/

theorem Formatted.withTail {tags : List String} {element : Node}
    (formatted : Formatted tags element) (tail : Option String) :
    Formatted tags (element.withTail tail) := by
  cases formatted with
  | lineBreak tagged textless childless => exact .lineBreak tagged textless childless
  | wrapped outer split below => exact .wrapped outer split below

theorem IsInline.withTail {element : Node} (inline : IsInline element)
    (tail : Option String) : IsInline (element.withTail tail) := by
  rcases inline with formatted | anchor | image
  · exact .inl (formatted.withTail tail)
  · exact .inr (.inl anchor)
  · exact .inr (.inr image)

/-! ### Runs are formatted text -/

/-- Appended text keeps any property of the children that tails do not
matter to. -/
theorem forall_children_appendText {Holds : Node → Prop}
    (tailless : ∀ element tail, Holds element → Holds (element.withTail tail))
    {holder : Node} (children : ∀ child ∈ holder.children, Holds child)
    (addition : String) : ∀ child ∈ (holder.appendText addition).children, Holds child := by
  rcases List.eq_nil_or_concat holder.children with empty | ⟨earlier, last, split⟩
  · rw [appendText_of_no_children empty]
    exact children
  · rw [List.concat_eq_append] at split
    rw [split] at children
    rw [appendText_of_children split]
    intro child member
    rcases List.mem_append.mp member with before | isLast
    · exact children child (List.mem_append_left _ before)
    · rw [List.mem_singleton.mp isLast]
      exact tailless last _ (children last (by simp))

theorem forall_children_appendPieces {Holds : Node → Prop}
    (tailless : ∀ element tail, Holds element → Holds (element.withTail tail))
    (lineBreaks : ∀ piece, Holds (lineBreak piece))
    {holder : Node} (children : ∀ child ∈ holder.children, Holds child)
    (pieces : List String) : ∀ child ∈ (appendPieces holder pieces).children, Holds child := by
  cases pieces with
  | nil => exact children
  | cons first rest =>
      intro child member
      rcases List.mem_append.mp member with before | added
      · exact forall_children_appendText tailless children first child before
      · obtain ⟨piece, _, rfl⟩ := List.mem_map.mp added
        exact lineBreaks piece

theorem formatted_lineBreak (tags : List String) (piece : String) :
    Formatted tags (lineBreak piece) :=
  .lineBreak rfl rfl rfl

/-- An item of a list that goes on in another list leaves the rest of that list
for what follows it. -/
theorem split_of_cons_sublist {Item : Type} {first : Item} {rest list : List Item}
    (sublist : (first :: rest).Sublist list) :
    ∃ before after, list = before ++ first :: after ∧ rest.Sublist after := by
  obtain ⟨front, back, rfl, member, remaining⟩ := List.cons_sublist_iff.mp sublist
  obtain ⟨before, between, rfl⟩ := List.append_of_mem member
  refine ⟨before, between ++ back, by simp, ?_⟩
  exact remaining.trans (List.sublist_append_right between back)

/-- Nested wrappers that are empty and whose tags follow the order of a list
hold what may stand there. -/
theorem formatted_appendWrapped {tags : List String} {outer : Node} {inner : List Node}
    (empty : ∀ wrapper ∈ outer :: inner, wrapper.children = [])
    (ordered : ((outer :: inner).map Element.tag).Sublist tags) (pieces : List String) :
    Formatted tags (appendWrapped pieces inner outer) := by
  induction inner generalizing outer tags with
  | nil =>
      obtain ⟨before, after, split, -⟩ := split_of_cons_sublist ordered
      have sameTag : (appendPieces outer pieces).tag = outer.tag :=
        tag_eq_of_shell (shell_appendPieces outer pieces)
      rw [← sameTag] at split
      refine .wrapped before split ?_
      refine forall_children_appendPieces (fun _ tail formatted => formatted.withTail tail)
        (formatted_lineBreak after) ?_ pieces
      simp [empty outer List.mem_cons_self]
  | cons next rest inductionHypothesis =>
      obtain ⟨before, after, split, remaining⟩ := split_of_cons_sublist ordered
      have nested : Formatted after (appendWrapped pieces rest next) :=
        inductionHypothesis
          (fun wrapper member => empty wrapper (List.mem_cons_of_mem _ member)) remaining
      refine .wrapped before split ?_
      simpa [appendWrapped, Element.appendChild, empty outer List.mem_cons_self] using nested

theorem spanOf_eq (style : RunStyle) :
    spanOf style = [] ∨
      ∃ attributes, spanOf style = [Element.new () "span" attributes] := by
  unfold spanOf
  cases classes : spanClasses style with
  | nil => exact .inl rfl
  | cons name rest =>
      obtain ⟨attributes, classed⟩ := foldl_addClass (name :: rest) (Element.new () "span" [])
      exact .inr ⟨attributes, congrArg (fun span => [span]) classed⟩

theorem wrappers_ordered (style : RunStyle) :
    ((wrappers style).map Element.tag).Sublist formattingTags := by
  have spans : ((spanOf style).map Element.tag).Sublist ["span"] := by
    rcases spanOf_eq style with none | ⟨attributes, one⟩
    · rw [none]
      exact List.nil_sublist _
    · rw [one]
      exact List.Sublist.refl _
  have single (wanted : Bool) (tag : String) :
      ((if wanted then [Element.new () tag []] else []).map Element.tag).Sublist [tag] := by
    cases wanted
    · exact List.nil_sublist _
    · exact List.Sublist.refl _
  simp only [wrappers, List.map_append]
  exact ((((single style.italic "em").append (single style.bold "strong")).append
    spans).append (single style.supertext "sup")).append (single style.subtext "sub")

/-- What holds of new elements, and of those that have only been given classes, holds
of every wrapper. -/
theorem forall_wrappers {Holds : Node → Prop}
    (plain : ∀ tag ∈ formattingTags, Holds (.new () tag []))
    (classed : ∀ classes : List String,
      Holds (classes.foldl Element.addClass (Element.new () "span" [])))
    (style : RunStyle) : ∀ wrapper ∈ wrappers style, Holds wrapper := by
  have spans : ∀ wrapper ∈ spanOf style, Holds wrapper := by
    intro wrapper member
    unfold spanOf at member
    split at member
    · cases member
    · exact List.mem_singleton.mp member ▸ classed _
  have single (wanted : Bool) {tag : String} (formatting : tag ∈ formattingTags) :
      ∀ wrapper ∈ (if wanted then [Element.new () tag []] else []), Holds wrapper := by
    intro wrapper member
    split at member
    · exact List.mem_singleton.mp member ▸ plain tag formatting
    · cases member
  simp only [wrappers, List.mem_append]
  rintro wrapper ((((member | member) | member) | member) | member)
  · exact single _ (by decide) wrapper member
  · exact single _ (by decide) wrapper member
  · exact spans wrapper member
  · exact single _ (by decide) wrapper member
  · exact single _ (by decide) wrapper member

theorem wrappers_new (style : RunStyle) :
    ∀ wrapper ∈ wrappers style,
      ∃ tag ∈ formattingTags, ∃ attributes, wrapper = Element.new () tag attributes := by
  refine forall_wrappers (fun tag formatting => ⟨tag, formatting, [], rfl⟩)
    (fun classes => ?_) style
  obtain ⟨attributes, classed⟩ := foldl_addClass classes (Element.new () "span" [])
  exact ⟨"span", by decide, attributes, classed⟩

theorem wrappers_childless (style : RunStyle) :
    ∀ wrapper ∈ wrappers style, wrapper.children = [] := by
  intro wrapper member
  obtain ⟨tag, -, attributes, rfl⟩ := wrappers_new style wrapper member
  rfl

/-- A run adds formatted text to the element that holds it. -/
theorem forall_children_appendRun {Holds : Node → Prop}
    (tailless : ∀ element tail, Holds element → Holds (element.withTail tail))
    (holds : ∀ element, Formatted formattingTags element → Holds element)
    {holder : Node} (children : ∀ child ∈ holder.children, Holds child) (run : TextRun) :
    ∀ child ∈ (appendRun run holder).children, Holds child := by
  unfold appendRun
  cases wrapped : wrappers run.style with
  | nil =>
      exact forall_children_appendPieces tailless
        (fun piece => holds _ (formatted_lineBreak _ piece)) children _
  | cons outer inner =>
      intro child member
      rcases List.mem_append.mp member with before | added
      · exact children child before
      · rw [List.mem_singleton.mp added]
        apply holds
        apply formatted_appendWrapped
        · rw [← wrapped]
          exact wrappers_childless run.style
        · rw [← wrapped]
          exact wrappers_ordered run.style

/-! ### Items are inline -/

theorem hinted_eq (hint : Option String) (element : Node) :
    ∃ attributes, hinted hint element = { element with attributes := attributes } := by
  unfold hinted
  split
  · exact ⟨element.attributes, by cases element; rfl⟩
  · exact ⟨element.attributes, by cases element; rfl⟩
  · exact ⟨_, rfl⟩

theorem isAnchor_linkNode (address : String) (hint : Option String) (runs : List TextRun) :
    IsAnchor (linkNode address hint runs) := by
  have opened : IsAnchor (hinted hint (.new () "a" [("href", address)])) := by
    obtain ⟨attributes, titled⟩ := hinted_eq hint (.new () "a" [("href", address)])
    rw [titled]
    exact ⟨rfl, by simp [Element.new]⟩
  unfold linkNode
  generalize hinted hint (.new () "a" [("href", address)]) = link at opened
  induction runs generalizing link with
  | nil => exact opened
  | cons run rest inductionHypothesis =>
      apply inductionHypothesis
      refine ⟨(tag_eq_of_shell (shell_appendRun run link)).trans opened.1, ?_⟩
      exact forall_children_appendRun (fun _ tail formatted => formatted.withTail tail)
        (fun _ formatted => formatted) opened.2 run

theorem isImage_imageNode (source : String) (hint : Option String) :
    IsImage (imageNode source hint) := by
  obtain ⟨attributes, titled⟩ := hinted_eq hint (.new () "img" [("src", source)])
  rw [imageNode, titled]
  exact ⟨rfl, rfl, rfl⟩

theorem isAnchor_anchorNode (name : String) : IsAnchor (anchorNode name) :=
  ⟨rfl, by simp [anchorNode, Element.new]⟩

theorem isAnchor_noteMarker (number : Nat) : IsAnchor (Pass.noteMarker number) :=
  ⟨rfl, by simp [Pass.noteMarker, Element.new, Element.addClass, Element.set]⟩

theorem forall_children_put {holder : Node}
    (children : ∀ child ∈ holder.children, IsInline child) (item : Item) :
    ∀ child ∈ (item.put holder).children, IsInline child := by
  have appended {added : Node} (inline : IsInline added) :
      ∀ child ∈ (holder.appendChild added).children, IsInline child := by
    intro child member
    rcases List.mem_append.mp member with before | isAdded
    · exact children child before
    · rw [List.mem_singleton.mp isAdded]
      exact inline
  cases item with
  | text run =>
      exact forall_children_appendRun (fun _ tail inline => inline.withTail tail)
        (fun _ formatted => .inl formatted) children run
  | link address hint runs => exact appended (.inr (.inl (isAnchor_linkNode address hint runs)))
  | anchor name => exact appended (.inr (.inl (isAnchor_anchorNode name)))
  | image source hint => exact appended (.inr (.inr (isImage_imageNode source hint)))
  | marker number => exact appended (.inr (.inl (isAnchor_noteMarker number)))

theorem forall_children_flow {holder : Node}
    (children : ∀ child ∈ holder.children, IsInline child) (items : List Item) :
    ∀ child ∈ (flow items holder).children, IsInline child := by
  induction items generalizing holder with
  | nil => exact children
  | cons item rest inductionHypothesis =>
      exact inductionHypothesis (forall_children_put children item)

/-! ### No block element in a flow -/

theorem Formatted.lacks {allowed tags : List String}
    (avoids : ∀ tag ∈ "br" :: formattingTags, tag ∉ tags)
    (within : ∀ tag ∈ allowed, tag ∈ formattingTags) {element : Node}
    (formatted : Formatted allowed element) : Element.Lacks tags element := by
  induction formatted with
  | lineBreak tagged textless childless =>
      refine .intro ?_ (by simp [childless])
      have absent : "br" ∉ tags := avoids "br" (by decide)
      simpa [Element.isTagged, tagged] using absent
  | @wrapped _ inner element outer split below inductionHypothesis =>
      subst split
      refine .intro ?_ fun child member => inductionHypothesis child member ?_
      · have formatting : element.tag ∈ formattingTags := within _ (by simp)
        have absent : element.tag ∉ tags := avoids _ (List.mem_cons_of_mem _ formatting)
        simpa [Element.isTagged] using absent
      · intro tag inInner
        exact within tag (by simp [inInner])

theorem IsInline.lacks {tags : List String} (avoids : ∀ tag ∈ inlineTags, tag ∉ tags)
    {element : Node} (inline : IsInline element) : Element.Lacks tags element := by
  have unformatted : ∀ tag ∈ "br" :: formattingTags, tag ∉ tags := by
    intro tag member
    apply avoids
    rcases List.mem_cons.mp member with rfl | formatting
    · exact List.mem_cons_self
    · exact List.mem_cons_of_mem _ (List.mem_cons_of_mem _ (List.mem_cons_of_mem _ formatting))
  rcases inline with formatted | ⟨tagged, below⟩ | ⟨tagged, -, childless⟩
  · exact formatted.lacks unformatted fun _ member => member
  · have absent : "a" ∉ tags := avoids "a" (by decide)
    refine .intro (by simpa [Element.isTagged, tagged] using absent) fun child member => ?_
    exact (below child member).lacks unformatted fun _ formatting => formatting
  · have absent : "img" ∉ tags := avoids "img" (by decide)
    exact .intro (by simpa [Element.isTagged, tagged] using absent) (by simp [childless])

end Folio.Draft
