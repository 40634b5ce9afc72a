import Folio.Proofs.Fragment
import Folio.Proofs.ReadBack

/-!
# The page and the description of its document

A document that shows its metadata is described by five of its terms.  The values of the
title and of the description are joined, so how they were split is not shown; creators,
subjects and dates are shown value by value.  Two documents with the same lines have the
same page exactly if they are described in the same way.

What a page says is read off its head: a page is read back from its output, laying out
leaves attributes alone, and each property has a name that tells its term.
-/

namespace Folio

open Render Markup

/-! ### The attributes in the head of a page -/

namespace Markup.Element

/-- The attributes of each child of an element. -/
def settings (element : Node) : List (List (String × String)) :=
  element.children.map attributes

/-- The attributes of each element in the head of a page, which is its first child. -/
def headSettings (page : Node) : List (List (String × String)) :=
  page.children.head?.elim [] settings

theorem compactAll_eq_map (children : List Node) : compactAll children = children.map compact := by
  induction children with
  | nil => rfl
  | cons child rest inductionHypothesis => rw [compactAll, inductionHypothesis, List.map_cons]

theorem attributes_compact (element : Node) : element.compact.attributes = element.attributes := by
  cases element
  rfl

theorem children_compact (element : Node) :
    element.compact.children = element.children.map compact := by
  cases element
  exact compactAll_eq_map _

theorem settings_compact (element : Node) : element.compact.settings = element.settings := by
  rw [settings, children_compact, List.map_map]
  exact List.map_congr_left fun child _ => attributes_compact child

theorem headSettings_compact (page : Node) : page.compact.headSettings = page.headSettings := by
  rw [headSettings, headSettings, children_compact]
  cases page.children with
  | nil => rfl
  | cons head rest => exact settings_compact head

theorem attributes_layOut (step : String) (level : Int) (element : Node) :
    (element.layOut step level).attributes = element.attributes := by
  cases element
  unfold layOut
  split <;> rfl

theorem children_layOut (step : String) (level : Int) (element : Node) :
    (element.layOut step level).children = element.children ∨
      (element.layOut step level).children = layOutAll step level element.children := by
  cases element
  unfold layOut
  split
  · exact .inr rfl
  · exact .inl rfl

theorem map_attributes_layOutAll (step : String) (level : Int) (children : List Node) :
    (layOutAll step level children).map attributes = children.map attributes := by
  induction children with
  | nil => rfl
  | cons child rest inductionHypothesis =>
      have kept (tail : Option String) :
          ((child.layOut step (level + 1)).withTail tail).attributes = child.attributes :=
        attributes_layOut step (level + 1) child
      rw [layOutAll_cons, List.map_cons, List.map_cons, inductionHypothesis, kept]

theorem settings_layOut (step : String) (level : Int) (element : Node) :
    (element.layOut step level).settings = element.settings := by
  rcases children_layOut step level element with same | laid
  · rw [settings, same, settings]
  · rw [settings, laid, map_attributes_layOutAll, settings]

theorem headSettings_layOut (step : String) (level : Int) (page : Node) :
    (page.layOut step level).headSettings = page.headSettings := by
  rcases children_layOut step level page with same | laid
  · rw [headSettings, same, headSettings]
  · rw [headSettings, laid, headSettings]
    cases page.children with
    | nil => rfl
    | cons head rest => exact settings_layOut step (level + 1) head

end Markup.Element

theorem Page.headSettings_prepareNode (options : Options) (page : Node) :
    (Page.prepareNode options page).headSettings = page.headSettings := by
  rw [Page.prepareNode]
  split
  · exact Element.headSettings_layOut Page.indentStep 0 page.detached
  · rfl

/-! ### Descriptions -/

/-- Values that are joined: there are none on both sides, or their texts are the same. -/
def SameJoined (first second : List String) : Prop :=
  first = [] ∧ second = [] ∨
    first ≠ [] ∧ second ≠ [] ∧ ", ".intercalate first = ", ".intercalate second

instance (first second : List String) : Decidable (SameJoined first second) :=
  inferInstanceAs (Decidable (_ ∨ _))

/-- Two documents that are described in the same way. -/
structure SameDescription (first second : Document) : Prop where
  title : SameJoined (first.term "title") (second.term "title")
  description : SameJoined (first.term "description") (second.term "description")
  creator : first.term "creator" = second.term "creator"
  subject : first.term "subject" = second.term "subject"
  date : first.term "date" = second.term "date"

/-- The text that is shown for values that are joined; none if there are no values. -/
def joinedValues : List String → List String
  | [] => []
  | values => [", ".intercalate values]

theorem joinedValues_eq_iff (first second : List String) :
    joinedValues first = joinedValues second ↔ SameJoined first second := by
  cases first with
  | nil => cases second <;> simp [joinedValues, SameJoined]
  | cons value rest => cases second <;> simp [joinedValues, SameJoined]

theorem SameJoined.intercalate_eq {first second : List String} (same : SameJoined first second) :
    ", ".intercalate first = ", ".intercalate second := by
  rcases same with ⟨rfl, rfl⟩ | ⟨-, -, joined⟩
  · rfl
  · exact joined

/-! ### What the head tells -/

/-- The values that a head gives to a property. -/
def toldAs (name : String) (settings : List (List (String × String))) : List String :=
  settings.filterMap fun setting =>
    if setting.lookup "property" = some ("og:" ++ name) then setting.lookup "content" else none

theorem toldAs_append (name : String) (first second : List (List (String × String))) :
    toldAs name (first ++ second) = toldAs name first ++ toldAs name second :=
  List.filterMap_append

theorem toldAs_properties (name stated : String) (values : List String) :
    toldAs name ((values.map (Page.property stated)).map Element.attributes) =
      if stated = name then values else [] := by
  have found (value : String) :
      (Page.property stated value).attributes.lookup "property" = some ("og:" ++ stated) := rfl
  have content (value : String) :
      (Page.property stated value).attributes.lookup "content" = some value := rfl
  by_cases same : stated = name
  · subst same
    rw [if_pos rfl, toldAs, List.map_map, List.filterMap_map]
    simp only [Function.comp_def, found, content, if_true]
    exact List.filterMap_some
  · rw [if_neg same, toldAs, List.map_map, List.filterMap_map]
    simp [Function.comp_def, found, same]

theorem mergedProperty_eq (document : Document) (term name : String) :
    Page.mergedProperty document term name =
      (joinedValues (document.term term)).map (Page.property name) := by
  unfold Page.mergedProperty
  cases document.term term <;> rfl

/-- What a document that shows its metadata adds to the values of a property. -/
theorem toldAs_metadataNodes {document : Document} (shown : document.showsMetadata = true)
    (name : String) :
    toldAs name ((Page.metadataNodes document).map Element.attributes) =
      (if "type" = name then ["article"] else []) ++
        (if "title" = name then joinedValues (document.term "title") else []) ++
        (if "description" = name then joinedValues (document.term "description") else []) ++
        (if "article:author" = name then document.term "creator" else []) ++
        (if "article:tag" = name then document.term "subject" else []) ++
        (if "article:published_time" = name then document.term "date" else []) := by
  have titled : toldAs name ((if document.title.isEmpty then []
      else [({ Element.new () "title" [] with text := some document.title } : Node)]).map
        Element.attributes) = [] := by
    split <;> rfl
  have article := toldAs_properties name "type" ["article"]
  rw [List.map_singleton] at article
  rw [Page.metadataNodes, if_pos shown, mergedProperty_eq, mergedProperty_eq]
  simp only [List.map_append, toldAs_append, titled, article, Page.separateProperties,
    toldAs_properties, List.nil_append]

theorem settings_head (stylesheets : List String) (document : Document) :
    (Page.head stylesheets document).settings =
      (Page.styleNodes stylesheets).map Element.attributes ++
        (Page.metadataNodes document).map Element.attributes :=
  List.map_append

/-- Heads of documents that show their metadata tell the description apart. -/
theorem sameDescription_of_settings {stylesheets : List String} {first second : Document}
    (firstShown : first.showsMetadata = true) (secondShown : second.showsMetadata = true)
    (same : (Page.head stylesheets first).settings = (Page.head stylesheets second).settings) :
    SameDescription first second := by
  rw [settings_head, settings_head] at same
  have told (name : String) :
      toldAs name ((Page.metadataNodes first).map Element.attributes) =
        toldAs name ((Page.metadataNodes second).map Element.attributes) :=
    congrArg (toldAs name) (List.append_cancel_left same)
  simp only [toldAs_metadataNodes firstShown, toldAs_metadataNodes secondShown] at told
  exact {
    title := (joinedValues_eq_iff _ _).mp (by simpa using told "title")
    description := (joinedValues_eq_iff _ _).mp (by simpa using told "description")
    creator := by simpa using told "article:author"
    subject := by simpa using told "article:tag"
    date := by simpa using told "article:published_time" }

/-! ### Documents that are described in the same way -/

theorem metadataNodes_of_hidden {document : Document} (hidden : document.showsMetadata = false) :
    Page.metadataNodes document = [] := by
  rw [Page.metadataNodes, hidden]
  rfl

theorem titleHeading_of_hidden (options : Options) {document : Document}
    (hidden : document.showsMetadata = false) : titleHeading options document = [] := by
  rw [titleHeading, hidden, Bool.and_false, Bool.false_and]
  rfl

namespace SameDescription

variable {first second : Document}

theorem title_eq (same : SameDescription first second) : first.title = second.title :=
  same.title.intercalate_eq

theorem metadataNodes_eq (same : SameDescription first second)
    (shown : first.showsMetadata = second.showsMetadata) :
    Page.metadataNodes first = Page.metadataNodes second := by
  have title := (joinedValues_eq_iff _ _).mpr same.title
  have description := (joinedValues_eq_iff _ _).mpr same.description
  simp only [Page.metadataNodes, mergedProperty_eq, Page.separateProperties, shown,
    same.title_eq, title, description, same.creator, same.subject, same.date]

theorem titleHeading_eq (same : SameDescription first second)
    (shown : first.showsMetadata = second.showsMetadata) (options : Options) :
    titleHeading options first = titleHeading options second := by
  rw [titleHeading, titleHeading, shown, same.title_eq]

end SameDescription

/-- A page depends on the lines of a document and on what is shown of its metadata. -/
theorem Draft.page_congr {options : Options} {first second : Document}
    (metadata : Page.metadataNodes first = Page.metadataNodes second)
    (heading : titleHeading options first = titleHeading options second) (draft : Draft) :
    page options first draft = page options second draft := by
  rw [page, page, body, body, emptyBody, emptyBody, Page.head, Page.head, metadata, heading]

/-- Outputs are the same only if the heads of the pages have the same attributes. -/
theorem settings_of_serialize_eq {options : Options} (whole : options.bodyOnly = false)
    {first second : Document} {draft : Draft}
    (same : Page.serialize options (Draft.page options first draft) =
      Page.serialize options (Draft.page options second draft)) :
    (Page.head options.stylesheets first).settings =
      (Page.head options.stylesheets second).settings := by
  rw [Draft.serialize_page whole, Draft.serialize_page whole] at same
  have printed := (String.append_right_inj _).mp same
  have compact := Reader.compact_eq_of_print_eq
    (readable_prepareNode options (Draft.readable_page options first draft))
    (readable_prepareNode options (Draft.readable_page options second draft)) printed
  have heads := congrArg Element.headSettings compact
  rw [Element.headSettings_compact, Element.headSettings_compact,
    Page.headSettings_prepareNode, Page.headSettings_prepareNode] at heads
  exact heads

/-- The page shows the description of its document, all of it and nothing else of the
metadata: documents with the same lines have the same output if they do not show their
metadata, and else exactly if they are described in the same way. -/
theorem render_describes {options : Options} (whole : options.bodyOnly = false)
    {first second : Document} (sameLines : first.lines = second.lines)
    {firstOutput secondOutput : String} (firstRendered : render options first = .ok firstOutput)
    (secondRendered : render options second = .ok secondOutput) :
    (first.showsMetadata = false → second.showsMetadata = false →
        firstOutput = secondOutput) ∧
      (first.showsMetadata = true → second.showsMetadata = true →
        (firstOutput = secondOutput ↔ SameDescription first second)) := by
  obtain ⟨draft, ran, rfl⟩ := Draft.render_ok firstRendered
  obtain ⟨secondDraft, secondRan, rfl⟩ := Draft.render_ok secondRendered
  obtain rfl : draft = secondDraft := by
    rw [sameLines, secondRan] at ran
    exact (Except.ok.inj ran).symm
  constructor
  · intro firstHidden secondHidden
    have metadata : Page.metadataNodes first = Page.metadataNodes second := by
      rw [metadataNodes_of_hidden firstHidden, metadataNodes_of_hidden secondHidden]
    have heading : titleHeading options first = titleHeading options second := by
      rw [titleHeading_of_hidden options firstHidden, titleHeading_of_hidden options secondHidden]
    rw [Draft.page_congr metadata heading]
  · intro firstShown secondShown
    constructor
    · intro same
      exact sameDescription_of_settings firstShown secondShown
        (settings_of_serialize_eq whole same)
    · intro same
      have shown : first.showsMetadata = second.showsMetadata := firstShown.trans secondShown.symm
      rw [Draft.page_congr (same.metadataNodes_eq shown) (same.titleHeading_eq shown options)]

/-- A document with a title in two parts and two creators. -/
def described : Document where
  lines := [.run ⟨"a", .plain, false⟩]
  metadata := [("title", ["b", "c"]), ("creator", ["d", "e"]), ("date", [])]
  showsMetadata := true

/-- The same with the terms in another order, the title in one part, no date, and a term
that is not shown. -/
def redescribed : Document :=
  { described with
    metadata := [("creator", ["d", "e"]), ("language", ["f"]), ("title", ["b, c"])] }

/-- The same with the creators in one value. -/
def misdescribed : Document :=
  { described with metadata := [("title", ["b", "c"]), ("creator", ["d, e"])] }

theorem render_describes_creators :
    Options.standard.bodyOnly = false ∧ described.lines = redescribed.lines ∧
      described.lines = misdescribed.lines ∧
      ∃ output other, render .standard described = .ok output ∧
        render .standard redescribed = .ok output ∧
        render .standard misdescribed = .ok other ∧ output ≠ other := by
  have whole : Options.standard.bodyOnly = false := rfl
  have linesKept : described.lines = redescribed.lines := rfl
  have linesKeptAlso : described.lines = misdescribed.lines := rfl
  have rendered (document : Document) (sameLines : described.lines = document.lines) :
      ∃ output, render .standard document = .ok output := by
    rw [render_eq_map, Draft.renderTree_eq_page, ← sameLines]
    exact ⟨_, rfl⟩
  obtain ⟨output, describedOutput⟩ := rendered described rfl
  obtain ⟨redescribedText, redescribedOutput⟩ := rendered redescribed linesKept
  obtain ⟨other, misdescribedOutput⟩ := rendered misdescribed linesKeptAlso
  have alike := (render_describes whole linesKept describedOutput redescribedOutput).2 rfl rfl
  have unlike :=
    (render_describes whole linesKeptAlso describedOutput misdescribedOutput).2 rfl rfl
  have sameDescription : SameDescription described redescribed :=
    ⟨by decide, by decide, by decide, by decide, by decide⟩
  obtain rfl : output = redescribedText := alike.mpr sameDescription
  refine ⟨whole, linesKept, linesKeptAlso, output, other, describedOutput, redescribedOutput,
    misdescribedOutput, ?_⟩
  intro same
  exact absurd (unlike.mp same).creator (by decide)

end Folio
