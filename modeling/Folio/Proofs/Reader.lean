import Folio.Proofs.Flow
import Folio.Markup.Printer

/-!
# Reading markup back

A reader of markup takes a text character by character.  It knows start tags with
quoted attribute values, end tags, the void tags that have none, four entities, and
that the text of a style sheet ends only with its end tag.  It keeps the element
that is open and those around it, and it fails on anything else.  It reads what is
printed of a tree as the same tree, whatever texts and attribute values are in it, as
long as tags and attribute names are plain and only the text of style sheets is left
as it is.  An empty text cannot be told from an absent one.
-/

namespace Folio.Markup

/-- The characters of tags and attribute names. -/
def isNameChar (c : Char) : Bool := c.isAlphanum || c == '-'

/-- Texts that can be a tag or the name of an attribute. -/
def IsName (name : String) : Prop := name.toList ≠ [] ∧ name.toList.all isNameChar = true

theorem IsName.plain {name : String} (named : IsName name) :
    ∀ c ∈ name.toList, isNameChar c = true :=
  List.all_eq_true.mp named.2

instance (name : String) : Decidable (IsName name) := inferInstanceAs (Decidable (_ ∧ _))

def entities : List (List Char × Char) :=
  [("amp".toList, '&'), ("lt".toList, '<'), ("gt".toList, '>'), ("quot".toList, '"')]

/-- What ends the text of a style sheet. -/
def styleEnd : List Char := "</style>".toList

/-- A slot of text in which an empty text is none. -/
def compactSlot (slot : Option String) : Option String :=
  if slot.getD "" = "" then none else slot

namespace Element

mutual
/-- An element without empty texts in it. -/
def compact : Node → Node
  | ⟨mark, tag, attributes, text, tail, children⟩ =>
      ⟨mark, tag, attributes, compactSlot text, compactSlot tail, compactAll children⟩

/-- Consecutive elements without empty texts in them. -/
def compactAll : List Node → List Node
  | [] => []
  | child :: rest => child.compact :: compactAll rest
end

end Element

/-- An element that can be told from its printed form: its names are plain, and its
tag leaves no doubt about how far its content goes. -/
structure PrintsPlainly (element : Node) : Prop where
  named : IsName element.tag
  lowered : Text.lower element.tag = element.tag
  noScript : element.tag ≠ "script"
  settingsNamed : ∀ name ∈ element.attributes.map Prod.fst, IsName name
  void : element.tag ∈ voidTags → element.text.getD "" = "" ∧ element.children = []
  style : element.tag = "style" → element.children = [] ∧ '>' ∉ (element.text.getD "").toList

/-- A tree of which every element prints plainly. -/
inductive Readable : Node → Prop
  | intro {element : Node} (plain : PrintsPlainly element)
      (below : ∀ child ∈ element.children, Readable child) : Readable element

/-- What a reader is in the middle of, with what it has read of it. -/
inductive ReaderMode where
  | content
  | entity (name : List Char)
  | tag
  | tagName (name : List Char)
  /-- Behind the name of a start tag, or behind an attribute. -/
  | inTag (element : Node)
  | attributeName (element : Node) (name : List Char)
  | quote (element : Node) (name : List Char)
  | value (element : Node) (name value : List Char)
  | valueEntity (element : Node) (name value entity : List Char)
  | endTag (name : List Char)
  /-- The text of a style sheet. -/
  | raw (text : List Char)

structure Reader where
  mode : ReaderMode
  /-- The element that is open, with what has been read of it. -/
  holder : Node
  /-- The elements around it, from the inside out. -/
  outer : List Node

namespace Reader

/-- A reader in front of a text.  What it reads is held by an element of its own. -/
def start : Reader := ⟨.content, .new () "" [], []⟩

/-- An element with text put at its end, if there is any. -/
def wrote (text : String) (holder : Node) : Node :=
  if text = "" then holder else holder.appendText text

/-- Text in the open element. -/
def write (text : String) (reader : Reader) : Reader :=
  { reader with holder := wrote text reader.holder }

/-- The end of a start tag. -/
def openElement (element : Node) (reader : Reader) : Reader :=
  if voidTags.contains element.tag then
    { reader with mode := .content, holder := reader.holder.appendChild element }
  else
    ⟨if element.tag = "style" then .raw [] else .content, element, reader.holder :: reader.outer⟩

/-- The end of an end tag. -/
def closeElement (tag : String) (reader : Reader) : Option Reader :=
  match reader.outer with
  | [] => none
  | parent :: outer =>
      if reader.holder.tag = tag then some ⟨.content, parent.appendChild reader.holder, outer⟩
      else none

/-- A character behind the name of a start tag or behind an attribute. -/
def stepInTag (element : Node) (reader : Reader) (c : Char) : Option Reader :=
  if c = ' ' then some { reader with mode := .attributeName element [] }
  else if c = '>' then some (reader.openElement element)
  else none

/-- The text of a style sheet so far, which may have come to its end. -/
def stepRaw (reader : Reader) (text : List Char) : Option Reader :=
  if styleEnd.isSuffixOf text then
    (reader.write (String.ofList (text.take (text.length - styleEnd.length)))).closeElement "style"
  else some { reader with mode := .raw text }

def step (reader : Reader) (c : Char) : Option Reader :=
  match reader.mode with
  | .content =>
      if c = '<' then some { reader with mode := .tag }
      else if c = '&' then some { reader with mode := .entity [] }
      else some (reader.write (String.singleton c))
  | .entity name =>
      if c = ';' then
        (entities.lookup name).map fun meant =>
          { reader.write (String.singleton meant) with mode := .content }
      else some { reader with mode := .entity (name ++ [c]) }
  | .tag =>
      if c = '/' then some { reader with mode := .endTag [] }
      else if isNameChar c then some { reader with mode := .tagName [c] }
      else none
  | .tagName name =>
      if isNameChar c then some { reader with mode := .tagName (name ++ [c]) }
      else reader.stepInTag (.new () (String.ofList name) []) c
  | .inTag element => reader.stepInTag element c
  | .attributeName element name =>
      if isNameChar c then some { reader with mode := .attributeName element (name ++ [c]) }
      else if c = '=' ∧ name ≠ [] then some { reader with mode := .quote element name }
      else none
  | .quote element name =>
      if c = '"' then some { reader with mode := .value element name [] } else none
  | .value element name value =>
      if c = '"' then
        let setting := (String.ofList name, String.ofList value)
        some { reader with
          mode := .inTag { element with attributes := element.attributes ++ [setting] } }
      else if c = '&' then some { reader with mode := .valueEntity element name value [] }
      else some { reader with mode := .value element name (value ++ [c]) }
  | .valueEntity element name value entity =>
      if c = ';' then
        (entities.lookup entity).map fun meant =>
          { reader with mode := .value element name (value ++ [meant]) }
      else some { reader with mode := .valueEntity element name value (entity ++ [c]) }
  | .endTag name =>
      if isNameChar c then some { reader with mode := .endTag (name ++ [c]) }
      else if c = '>' then reader.closeElement (String.ofList name)
      else none
  | .raw text => reader.stepRaw (text ++ [c])

/-- The tree that a reader has read when it stands between elements again and has
read nothing but one tree. -/
def tree? (reader : Reader) : Option Node :=
  match reader.mode, reader.outer, reader.holder.text, reader.holder.children with
  | .content, [], none, [tree] => some tree
  | _, _, _, _ => none

/-- Read a whole text as one tree. -/
def read (text : String) : Option Node := do
  let last ← text.toList.foldlM step start
  last.tree?

/-- A reader takes some characters and comes to another state. -/
def Reads (reader : Reader) (text : List Char) (next : Reader) : Prop :=
  text.foldlM step reader = some next

theorem Reads.nil (reader : Reader) : Reads reader [] reader := rfl

theorem Reads.append {reader middle last : Reader} {before after : List Char}
    (first : Reads reader before middle) (second : Reads middle after last) :
    Reads reader (before ++ after) last := by
  rw [Reads, List.foldlM_append, show before.foldlM step reader = some middle from first]
  exact second

theorem Reads.cons {reader middle last : Reader} {c : Char} {rest : List Char}
    (first : reader.step c = some middle) (second : Reads middle rest last) :
    Reads reader (c :: rest) last := by
  rw [Reads, List.foldlM_cons, first]
  exact second

theorem Reads.single {reader next : Reader} {c : Char} (stepped : reader.step c = some next) :
    Reads reader [c] next :=
  .cons stepped (.nil next)

variable (holder : Node) (outer : List Node)

/-- Characters that are collected one after the other, each as it is printed. -/
theorem reads_collected (mode : List Char → ReaderMode) (escape : Char → List Char)
    {allowed : Char → Prop} {text : List Char} (plain : ∀ c ∈ text, allowed c)
    (collects : ∀ collected c, allowed c →
      Reads ⟨mode collected, holder, outer⟩ (escape c) ⟨mode (collected ++ [c]), holder, outer⟩)
    (collected : List Char) :
    Reads ⟨mode collected, holder, outer⟩ (text.flatMap escape)
      ⟨mode (collected ++ text), holder, outer⟩ := by
  induction text generalizing collected with
  | nil =>
      rw [List.append_nil]
      exact .nil _
  | cons c rest inductionHypothesis =>
      have first := collects collected c (plain c List.mem_cons_self)
      have following := inductionHypothesis
        (fun other member => plain other (List.mem_cons_of_mem c member)) (collected ++ [c])
      rw [List.append_assoc] at following
      exact first.append following

/-! ### Text -/

theorem reads_escapeTextChar (c : Char) :
    Reads ⟨.content, holder, outer⟩ (escapeTextChar c)
      (write (String.singleton c) ⟨.content, holder, outer⟩) := by
  unfold escapeTextChar
  split
  · rfl
  · rfl
  · rfl
  · rename_i noAmpersand noLess noGreater
    refine .single ?_
    change (if c = '<' then _ else if c = '&' then _ else _) = _
    rw [if_neg noLess, if_neg noAmpersand]

theorem reads_escapeValueChar (element : Node) (name value : List Char) (c : Char) :
    Reads ⟨.value element name value, holder, outer⟩ (escapeValueChar c)
      ⟨.value element name (value ++ [c]), holder, outer⟩ := by
  unfold escapeValueChar
  split
  · rfl
  · rfl
  · rfl
  · rename_i noAmpersand noGreater noQuote
    refine .single ?_
    change (if c = '"' then _ else if c = '&' then _ else _) = _
    rw [if_neg noQuote, if_neg noAmpersand]

theorem wrote_wrote (first second : String) (holder : Node) :
    wrote second (wrote first holder) = wrote (first ++ second) holder := by
  by_cases noFirst : first = ""
  · rw [noFirst, String.empty_append]
    rfl
  by_cases noSecond : second = ""
  · rw [noSecond, String.append_empty]
    rfl
  have together : first ++ second ≠ "" := fun empty =>
    noFirst (String.append_eq_empty_iff.mp empty).1
  rw [wrote, if_neg noSecond, wrote, if_neg noFirst, wrote, if_neg together]
  rcases List.eq_nil_or_concat holder.children with empty | ⟨earlier, last, split⟩
  · simp [Element.appendText, empty, extendText, String.append_assoc]
  · rw [List.concat_eq_append] at split
    simp [Element.appendText, split, extendText, String.append_assoc]

theorem tag_wrote (text : String) (holder : Node) : (wrote text holder).tag = holder.tag := by
  unfold wrote
  split
  · rfl
  · exact Draft.tag_eq_of_shell (Draft.shell_appendText holder text)

theorem reads_characters (characters : List Char) :
    Reads ⟨.content, holder, outer⟩ (characters.flatMap escapeTextChar)
      ⟨.content, wrote (String.ofList characters) holder, outer⟩ := by
  induction characters generalizing holder with
  | nil => exact .nil _
  | cons c rest inductionHypothesis =>
      have first := reads_escapeTextChar holder outer c
      have following := first.append (inductionHypothesis (wrote (String.singleton c) holder))
      have together : String.singleton c ++ String.ofList rest = String.ofList (c :: rest) := by
        rw [← String.toList_inj, String.toList_append, String.toList_singleton,
          String.toList_ofList, String.toList_ofList, List.singleton_append]
      rwa [wrote_wrote, together] at following

theorem reads_text (text : String) :
    Reads ⟨.content, holder, outer⟩ (escapeText text).toList
      ⟨.content, wrote text holder, outer⟩ := by
  have taken := reads_characters holder outer text.toList
  rw [String.ofList_toList] at taken
  rwa [escapeText, String.toList_ofList]

/-! ### Tags -/

/-- Characters that are collected and printed as they are. -/
theorem reads_plain (mode : List Char → ReaderMode) {allowed : Char → Prop}
    {text : List Char} (plain : ∀ c ∈ text, allowed c)
    (collects : ∀ collected c, allowed c →
      step ⟨mode collected, holder, outer⟩ c = some ⟨mode (collected ++ [c]), holder, outer⟩)
    (collected : List Char) :
    Reads ⟨mode collected, holder, outer⟩ text ⟨mode (collected ++ text), holder, outer⟩ := by
  have taken := reads_collected holder outer mode (fun c => [c]) plain
    (fun before c fits => .single (collects before c fits)) collected
  rwa [List.flatMap_singleton'] at taken

theorem reads_attribute (element : Node) {name : String} (named : IsName name) (value : String) :
    Reads ⟨.inTag element, holder, outer⟩ (printAttribute (name, value)).toList
      ⟨.inTag { element with attributes := element.attributes ++ [(name, value)] }, holder,
        outer⟩ := by
  have printed : (printAttribute (name, value)).toList =
      ' ' :: (name.toList ++ '=' :: '"' :: (value.toList.flatMap escapeValueChar ++ ['"'])) := by
    simp [printAttribute, escapeValue, String.toList_append]
  rw [printed]
  have begun : step ⟨.inTag element, holder, outer⟩ ' ' =
      some ⟨.attributeName element [], holder, outer⟩ := rfl
  have nameRead := reads_plain holder outer (.attributeName element) named.plain
    (fun collected c fits => if_pos fits) []
  have equals : step ⟨.attributeName element name.toList, holder, outer⟩ '=' =
      some ⟨.quote element name.toList, holder, outer⟩ := by
    change (if '=' = '=' ∧ name.toList ≠ [] then _ else _) = _
    rw [if_pos ⟨rfl, named.1⟩]
  have quoted : step ⟨.quote element name.toList, holder, outer⟩ '"' =
      some ⟨.value element name.toList [], holder, outer⟩ := rfl
  have allowed : ∀ c ∈ value.toList, True := fun _ _ => trivial
  have valueRead := reads_collected holder outer (.value element name.toList) escapeValueChar
    allowed
    (fun collected c _ => reads_escapeValueChar holder outer element name.toList collected c) []
  have unquoted : step ⟨.value element name.toList value.toList, holder, outer⟩ '"' =
      some ⟨.inTag { element with attributes := element.attributes ++ [(name, value)] },
        holder, outer⟩ := by
    change some _ = _
    rw [String.ofList_toList, String.ofList_toList]
  exact .cons begun (nameRead.append
    (.cons equals (.cons quoted (valueRead.append (.single unquoted)))))

theorem reads_attributes {attributes : List (String × String)}
    (named : ∀ name ∈ attributes.map Prod.fst, IsName name) (element : Node) :
    Reads ⟨.inTag element, holder, outer⟩ (String.join (attributes.map printAttribute)).toList
      ⟨.inTag { element with attributes := element.attributes ++ attributes }, holder,
        outer⟩ := by
  induction attributes generalizing element with
  | nil =>
      cases element
      rw [List.append_nil, List.map_nil, String.join_nil, String.toList_empty]
      exact .nil _
  | cons setting rest inductionHypothesis =>
      have first := reads_attribute holder outer element (named setting.1 List.mem_cons_self)
        setting.2
      have following := first.append (inductionHypothesis
        (fun other member => named other (List.mem_cons_of_mem setting.1 member)) _)
      rw [List.append_assoc] at following
      rwa [List.map_cons, String.join_cons, String.toList_append]

/-- What ends the name of a start tag is taken as if it stood behind an attribute. -/
theorem reads_behindTagName {holder : Node} {outer : List Node} {tag : String} {c : Char}
    {rest : List Char} {next : Reader} (ends : isNameChar c = false)
    (taken : Reads ⟨.inTag (.new () tag []), holder, outer⟩ (c :: rest) next) :
    Reads ⟨.tagName tag.toList, holder, outer⟩ (c :: rest) next := by
  have same : step ⟨.tagName tag.toList, holder, outer⟩ c =
      step ⟨.inTag (.new () tag []), holder, outer⟩ c := by
    change (if isNameChar c = true then _ else stepInTag _ _ c) = stepInTag _ _ c
    rw [ends, if_neg Bool.false_ne_true, String.ofList_toList]
    rfl
  rw [Reads, List.foldlM_cons, same, ← List.foldlM_cons]
  exact taken

/-- The name of a start tag ends at the space in front of the first attribute or at the
end of the tag. -/
theorem reads_restOfStartTag (tag : String) {attributes : List (String × String)}
    (settingsNamed : ∀ name ∈ attributes.map Prod.fst, IsName name) :
    Reads ⟨.tagName tag.toList, holder, outer⟩
      ((String.join (attributes.map printAttribute)).toList ++ ['>'])
      (openElement (.new () tag attributes) ⟨.content, holder, outer⟩) := by
  have taken := (reads_attributes holder outer settingsNamed (.new () tag [])).append
    (.single (c := '>') rfl)
  cases attributes with
  | nil => exact reads_behindTagName rfl taken
  | cons setting rest =>
      have spaced : (String.join ((setting :: rest).map printAttribute)).toList ++ ['>'] =
          ' ' :: ((printAttribute setting).toList.tail ++
            (String.join (rest.map printAttribute)).toList ++ ['>']) := by
        simp [printAttribute, String.toList_append]
      rw [spaced] at taken ⊢
      exact reads_behindTagName rfl taken

theorem reads_startTag {tag : String} (named : IsName tag) {attributes : List (String × String)}
    (settingsNamed : ∀ name ∈ attributes.map Prod.fst, IsName name) :
    Reads ⟨.content, holder, outer⟩ (printStartTag tag attributes).toList
      (openElement (.new () tag attributes) ⟨.content, holder, outer⟩) := by
  obtain ⟨first, others, split⟩ := List.exists_cons_of_ne_nil named.1
  obtain ⟨firstPlain, othersPlain⟩ := List.forall_mem_cons.mp (split ▸ named.plain)
  have begun : step ⟨.tag, holder, outer⟩ first = some ⟨.tagName [first], holder, outer⟩ := by
    have noSlash : first ≠ '/' := by
      rintro rfl
      cases firstPlain
    change (if first = '/' then _ else if isNameChar first = true then _ else _) = _
    rw [if_neg noSlash, if_pos firstPlain]
  have nameRead := reads_plain holder outer .tagName othersPlain
    (fun collected c fits => if_pos fits) [first]
  rw [List.singleton_append, ← split] at nameRead
  have printed : (printStartTag tag attributes).toList =
      '<' :: first :: (others ++
        ((String.join (attributes.map printAttribute)).toList ++ ['>'])) := by
    simp [printStartTag, String.toList_append, split]
  rw [printed]
  exact .cons rfl (.cons begun
    (nameRead.append (reads_restOfStartTag holder outer tag settingsNamed)))

theorem reads_endTag {tag : String} (named : IsName tag) (element : Node)
    (tagged : element.tag = tag) (parent : Node) :
    Reads ⟨.content, element, parent :: outer⟩ ("</" ++ tag ++ ">").toList
      ⟨.content, parent.appendChild element, outer⟩ := by
  have printed : ("</" ++ tag ++ ">").toList = '<' :: '/' :: (tag.toList ++ ['>']) := by
    simp [String.toList_append]
  have nameRead := reads_plain element (parent :: outer) .endTag named.plain
    (fun collected c fits => if_pos fits) []
  have closed : step ⟨.endTag tag.toList, element, parent :: outer⟩ '>' =
      some ⟨.content, parent.appendChild element, outer⟩ := by
    change (if element.tag = String.ofList tag.toList then _ else _) = _
    rw [String.ofList_toList, if_pos tagged]
  rw [printed]
  exact .cons rfl (.cons rfl (nameRead.append (.single closed)))

/-- Only the end of a tag can end the text of a style sheet. -/
theorem stepRaw_of_ne {c : Char} (inside : c ≠ '>') (reader : Reader) (text : List Char) :
    stepRaw reader (text ++ [c]) = some { reader with mode := .raw (text ++ [c]) } := by
  rw [stepRaw, if_neg]
  intro ends
  obtain ⟨before, same⟩ := List.isSuffixOf_iff_suffix.mp ends
  have last : before ++ "</style".toList ++ ['>'] = text ++ [c] := by
    rw [← same, List.append_assoc]
    rfl
  exact inside (List.singleton_inj.mp (List.append_inj' last rfl).2).symm

theorem reads_styleText {text : String} (plain : '>' ∉ text.toList) (element : Node)
    (tagged : element.tag = "style") (parent : Node) :
    Reads ⟨.raw [], element, parent :: outer⟩ (text ++ "</style>").toList
      ⟨.content, parent.appendChild (wrote text element), outer⟩ := by
  have printed : (text ++ "</style>").toList = (text.toList ++ "</style".toList) ++ ['>'] := by
    simp [String.toList_append]
  have inTag : '>' ∉ "</style".toList := by decide
  have inside : ∀ c ∈ text.toList ++ "</style".toList, c ≠ '>' := by
    intro c member isEnd
    subst isEnd
    rcases List.mem_append.mp member with inText | inEnd
    · exact plain inText
    · exact inTag inEnd
  have collected := reads_plain element (parent :: outer) .raw inside
    (fun before c fits => stepRaw_of_ne fits _ before) []
  have ends : styleEnd.isSuffixOf (text.toList ++ styleEnd) = true :=
    List.isSuffixOf_iff_suffix.mpr (List.suffix_append text.toList styleEnd)
  have closed : step ⟨.raw (text.toList ++ "</style".toList), element, parent :: outer⟩ '>' =
      some ⟨.content, parent.appendChild (wrote text element), outer⟩ := by
    change stepRaw _ (text.toList ++ "</style".toList ++ ['>']) = _
    have whole : text.toList ++ "</style".toList ++ ['>'] = text.toList ++ styleEnd := by
      rw [List.append_assoc]
      rfl
    rw [whole, stepRaw, if_pos ends, List.length_append, Nat.add_sub_cancel, List.take_left,
      String.ofList_toList]
    exact if_pos ((tag_wrote text element).trans tagged)
  rw [printed]
  exact collected.append (.single closed)

/-! ### Elements -/

/-- Text put into an element that has only been opened. -/
theorem wrote_new (slot : Option String) (tag : String) (attributes : List (String × String)) :
    wrote (slot.getD "") (.new () tag attributes) =
      { Element.new () tag attributes with text := compactSlot slot } := by
  unfold wrote compactSlot
  cases slot with
  | none => rfl
  | some text =>
      by_cases absent : text = ""
      · simp [absent, Element.new]
      · simp [absent, Element.new, Element.appendText, extendText]

/-- Text put behind a child that no text follows. -/
theorem wrote_appendChild (slot : Option String) (holder : Node) {child : Node}
    (untailed : child.tail = none) :
    wrote (slot.getD "") (holder.appendChild child) =
      holder.appendChild (child.withTail (compactSlot slot)) := by
  have unchanged : child.withTail none = child := by
    rw [← untailed]
    cases child
    rfl
  unfold wrote compactSlot
  cases slot with
  | none =>
      change holder.appendChild child = holder.appendChild (child.withTail none)
      rw [unchanged]
  | some text =>
      by_cases absent : text = ""
      · simp [absent, unchanged]
      · simp [absent, Element.appendChild, Element.appendText, Element.withTail, extendText,
          untailed]

theorem reads_printAll {children : List Node}
    (below : ∀ child ∈ children, ∀ (holder : Node) (outer : List Node),
      Reads ⟨.content, holder, outer⟩ child.print.toList
        ⟨.content, holder.appendChild child.compact, outer⟩) :
    Reads ⟨.content, holder, outer⟩ (Element.printAll children).toList
      ⟨.content, { holder with children := holder.children ++ Element.compactAll children },
        outer⟩ := by
  induction children generalizing holder with
  | nil =>
      cases holder
      simp only [Element.printAll, String.toList_empty, Element.compactAll, List.append_nil]
      exact .nil _
  | cons child rest inductionHypothesis =>
      have following := (below child List.mem_cons_self holder outer).append
        (inductionHypothesis (holder.appendChild child.compact)
          fun other member => below other (List.mem_cons_of_mem child member))
      rw [Element.printAll, String.toList_append]
      simpa [Element.appendChild, Element.compactAll] using following

/-! What is read behind the start tag of an element, up to its tail, depends on how far
its tag says that the content goes. -/

theorem reads_voidContent {tag : String} (lowered : Text.lower tag = tag)
    (void : tag ∈ voidTags) {slot : Option String} (noText : slot.getD "" = "")
    (attributes : List (String × String)) :
    Reads (openElement (.new () tag attributes) ⟨.content, holder, outer⟩)
      (printText tag slot ++ Element.printAll ([] : List Node) ++ printEndTag tag).toList
      ⟨.content, holder.appendChild ⟨(), tag, attributes, compactSlot slot, none, []⟩,
        outer⟩ := by
  have isVoid : voidTags.contains tag = true := List.contains_iff_mem.mpr void
  have nothing :
      printText tag slot ++ Element.printAll ([] : List Node) ++ printEndTag tag = "" := by
    simp [printText, printEndTag, noText, lowered, void, Element.printAll, escapeText]
  have opened : openElement (.new () tag attributes) ⟨.content, holder, outer⟩ =
      ⟨.content, holder.appendChild (.new () tag attributes), outer⟩ := if_pos isVoid
  rw [nothing, opened, compactSlot, if_pos noText, String.toList_empty]
  exact .nil _

theorem reads_styleContent {slot : Option String} (plain : '>' ∉ (slot.getD "").toList)
    (attributes : List (String × String)) :
    Reads (openElement (.new () "style" attributes) ⟨.content, holder, outer⟩)
      (printText "style" slot ++ Element.printAll ([] : List Node) ++ printEndTag "style").toList
      ⟨.content, holder.appendChild ⟨(), "style", attributes, compactSlot slot, none, []⟩,
        outer⟩ := by
  have isRaw : rawTextTags.contains (Text.lower "style") = true := by decide
  have noVoid : voidTags.contains (Text.lower "style") = false := by decide
  have printed : printText "style" slot ++ Element.printAll ([] : List Node) ++
      printEndTag "style" = slot.getD "" ++ "</style>" := by
    rw [printText, printEndTag, if_pos isRaw, noVoid, Element.printAll, String.append_empty]
    rfl
  have taken := reads_styleText outer plain (.new () "style" attributes) rfl holder
  rw [wrote_new] at taken
  rw [printed]
  exact taken

theorem reads_openContent {tag : String} (named : IsName tag) (lowered : Text.lower tag = tag)
    (noVoid : tag ∉ voidTags) (notRaw : tag ∉ rawTextTags) {children : List Node}
    (below : ∀ child ∈ children, ∀ (holder : Node) (outer : List Node),
      Reads ⟨.content, holder, outer⟩ child.print.toList
        ⟨.content, holder.appendChild child.compact, outer⟩)
    (slot : Option String) (attributes : List (String × String)) :
    Reads (openElement (.new () tag attributes) ⟨.content, holder, outer⟩)
      (printText tag slot ++ Element.printAll children ++ printEndTag tag).toList
      ⟨.content,
        holder.appendChild
          ⟨(), tag, attributes, compactSlot slot, none, Element.compactAll children⟩,
        outer⟩ := by
  have noStyle : tag ≠ "style" := by
    rintro rfl
    exact notRaw (by decide)
  have opened : openElement (.new () tag attributes) ⟨.content, holder, outer⟩ =
      ⟨.content, .new () tag attributes, holder :: outer⟩ := by
    rw [openElement, if_neg]
    · exact congrArg (Reader.mk · _ _) (if_neg noStyle)
    · exact fun isVoid => noVoid (List.contains_iff_mem.mp isVoid)
  have textPrinted : printText tag slot = escapeText (slot.getD "") := by
    simp [printText, lowered, notRaw]
  have endPrinted : printEndTag tag = "</" ++ tag ++ ">" := by
    simp [printEndTag, lowered, noVoid]
  have textRead := reads_text (.new () tag attributes) (holder :: outer) (slot.getD "")
  rw [wrote_new] at textRead
  have childrenRead := reads_printAll
    { Element.new () tag attributes with text := compactSlot slot } (holder :: outer) below
  have endRead := reads_endTag outer named
    ⟨(), tag, attributes, compactSlot slot, none, Element.compactAll children⟩ rfl holder
  rw [opened, textPrinted, endPrinted, String.toList_append, String.toList_append]
  exact (textRead.append childrenRead).append endRead

/-- An element is read back in whatever element it stands. -/
theorem reads_print {element : Node} (readable : Readable element) (holder : Node)
    (outer : List Node) :
    Reads ⟨.content, holder, outer⟩ element.print.toList
      ⟨.content, holder.appendChild element.compact, outer⟩ := by
  induction readable generalizing holder outer with
  | @intro element plain _ inductionHypothesis =>
      obtain ⟨named, lowered, noScript, settingsNamed, void, style⟩ := plain
      obtain ⟨mark, tag, attributes, text, tail, children⟩ := element
      have started := reads_startTag holder outer named settingsNamed
      have contentRead : Reads (openElement (.new () tag attributes) ⟨.content, holder, outer⟩)
          (printText tag text ++ Element.printAll children ++ printEndTag tag).toList
          ⟨.content,
            holder.appendChild
              ⟨(), tag, attributes, compactSlot text, none, Element.compactAll children⟩,
            outer⟩ := by
        by_cases isVoid : tag ∈ voidTags
        · obtain ⟨noText, rfl⟩ := void isVoid
          exact reads_voidContent holder outer lowered isVoid noText attributes
        by_cases isStyle : tag = "style"
        · obtain ⟨rfl, plainText⟩ := style isStyle
          subst isStyle
          exact reads_styleContent holder outer plainText attributes
        · have notRaw : tag ∉ rawTextTags := by
            simpa [rawTextTags] using ⟨noScript, isStyle⟩
          exact reads_openContent holder outer named lowered isVoid notRaw inductionHypothesis
            text attributes
      have tailRead := reads_text
        (holder.appendChild
          ⟨(), tag, attributes, compactSlot text, none, Element.compactAll children⟩)
        outer (tail.getD "")
      rw [wrote_appendChild tail holder rfl] at tailRead
      have whole := (started.append contentRead).append tailRead
      rwa [← String.toList_append, ← String.toList_append, ← String.append_assoc,
        ← String.append_assoc] at whole

/-- A whole tree is read back from its printed form. -/
theorem read_print {tree : Node} (readable : Readable tree) :
    read tree.print = some tree.compact := by
  have taken := reads_print readable (.new () "" []) []
  rw [read, start, show tree.print.toList.foldlM step _ = some _ from taken]
  rfl

example : read "<p title=\"&quot;\">a<br>b&lt;</p>" =
    some ⟨(), "p", [("title", "\"")], some "a", none, [⟨(), "br", [], none, some "b<", []⟩]⟩ := by
  rfl

example : read "<p>a<b</p>" = none := by rfl

/-- Trees with the same printed form differ at most in empty texts. -/
theorem compact_eq_of_print_eq {first second : Node} (firstReadable : Readable first)
    (secondReadable : Readable second) (same : first.print = second.print) :
    first.compact = second.compact := by
  have readFirst := read_print firstReadable
  rw [same, read_print secondReadable] at readFirst
  exact (Option.some.inj readFirst).symm

end Reader

end Folio.Markup
