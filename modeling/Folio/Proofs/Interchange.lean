import Folio.Document.Reader
import Folio.Proofs.Writer

/-!
# The interchange form

A document is written as an object with its lines, its metadata and its features, and a
line as an object with a member for each of its fields.  A member may be left out when
reading takes its value for granted.  Reading the text gives the document back.
-/

namespace Folio

open Json

variable {omits : String → Bool}

/-! ### Fields and members -/

/-- A member to be written. -/
structure Field where
  name : String
  value : Value
  /-- Whether the member says no more than its absence would. -/
  isDefault : Bool

namespace Field

def ofFlag (name : String) (value : Bool) : Field := ⟨name, .flag value, !value⟩

def ofText (name value : String) : Field := ⟨name, .text value, value.isEmpty⟩

/-- Whether a field has a member when the members with some names are left out if they
can be. -/
def isWritten (omits : String → Bool) (field : Field) : Bool :=
  !(field.isDefault && omits field.name)

def member (field : Field) : String × Value := (field.name, field.value)

/-- The members of an object with some fields. -/
def members (omits : String → Bool) (fields : List Field) : List (String × Value) :=
  (fields.filter (isWritten omits)).map member

variable {fields : List Field}

theorem lookup_members_of_notMem (omits : String → Bool) {name : String}
    (absent : name ∉ fields.map Field.name) : (members omits fields).lookup name = none := by
  rw [List.lookup_eq_none_iff]
  intro entry written
  obtain ⟨field, present, rfl⟩ := List.mem_map.mp written
  have different : name ≠ field.name := by
    rintro rfl
    exact absent (List.mem_map_of_mem (List.mem_filter.mp present).1)
  simpa [member] using different

theorem lookup_members (omits : String → Bool) (distinct : (fields.map Field.name).Nodup)
    (field : Field) (present : field ∈ fields) :
    (members omits fields).lookup field.name =
      if field.isWritten omits then some field.value else none := by
  induction fields with
  | nil => cases present
  | cons first others inductionHypothesis =>
      rw [List.map_cons, List.nodup_cons] at distinct
      rcases List.mem_cons.mp present with rfl | later
      · by_cases written : field.isWritten omits = true
        · simp [members, written, member]
        · have absent := lookup_members_of_notMem omits distinct.1
          simpa [members, List.filter_cons, written] using absent
      · have different : (field.name == first.name) = false := by
          apply beq_eq_false_iff_ne.mpr
          intro same
          exact distinct.1 (same ▸ List.mem_map_of_mem later)
        have following := inductionHypothesis distinct.2 later
        by_cases written : first.isWritten omits = true
        · simpa [members, List.filter_cons, written, member, List.lookup_cons, different]
            using following
        · simpa [members, List.filter_cons, written] using following

/-- Reading a member that may have been left out. -/
theorem read_memberOr {Result : Type} (read : Value → Result)
    (distinct : (fields.map Field.name).Nodup) (field : Field) (present : field ∈ fields)
    {absent : Value} (same : field.isDefault = true → read absent = read field.value) :
    read (Document.memberOr (members omits fields) field.name absent) = read field.value := by
  rw [Document.memberOr, lookup_members omits distinct field present]
  by_cases written : field.isWritten omits = true
  · simp [written]
  · have isDefault : field.isDefault = true := by
      simp only [isWritten, Bool.not_eq_true, Bool.not_eq_false', Bool.and_eq_true] at written
      exact written.1
    simpa [written] using same isDefault

theorem flagOf_members (distinct : (fields.map Field.name).Nodup) {name : String} {value : Bool}
    (present : ofFlag name value ∈ fields) :
    Document.flagOf (members omits fields) name = value :=
  read_memberOr Value.isTrue distinct _ present (by simp [ofFlag, Value.isTrue])

theorem textOf_members (distinct : (fields.map Field.name).Nodup) {name value : String}
    (present : ofText name value ∈ fields) :
    Document.textOf (members omits fields) name = value :=
  read_memberOr Value.asText distinct _ present (by simp [ofText, Value.asText])

theorem isExact_members (distinct : (fields.map Field.name).Nodup)
    (exact : ∀ field ∈ fields, field.value.IsExact) :
    (Value.object (members omits fields)).IsExact := by
  constructor
  · apply membersExact_of_forall
    intro entry written
    obtain ⟨field, present, rfl⟩ := List.mem_map.mp written
    exact exact field (List.mem_filter.mp present).1
  · have kept : (members omits fields).map Prod.fst =
        (fields.filter (isWritten omits)).map Field.name := by
      simp [members, member, Function.comp_def]
    rw [kept]
    exact distinct.sublist (List.filter_sublist.map Field.name)

end Field

/-! ### Names and contents -/

theorem DirectiveKind.lower_name (kind : DirectiveKind) : Text.lower kind.name = kind.name := by
  cases kind <;> decide

theorem Destination.lower_name (destination : Destination) :
    Text.lower destination.name = destination.name := by
  cases destination <;> decide

theorem Alignment.lower_name (alignment : Alignment) :
    Text.lower alignment.name = alignment.name := by
  cases alignment <;> decide

def Content.source : Content → Value
  | absent => .null
  | text value => .text value
  | number value => .integer value
  | flag value => .flag value

theorem Content.isExact_source (content : Content) : content.source.IsExact := by
  cases content <;> trivial

def Target.source : Target → Value
  | missing => .null
  | unknown name => .text name
  | known destination => .text destination.name

theorem Target.isExact_source (target : Target) : target.source.IsExact := by
  cases target <;> trivial

namespace Document

theorem readName_text {Meaning : Type} {ofName? : String → Option Meaning} {name : String}
    {meaning : Meaning} (vocabulary : Vocabulary) (lowered : Text.lower name = name)
    (known : ofName? name = some meaning) :
    readName ofName? vocabulary (.text name) = .ok meaning := by
  simp [readName, Value.asText, lowered, known]

theorem readContent_source (content : Content) : readContent content.source = .ok content := by
  cases content <;> rfl

theorem readAlignment_name (alignment : Alignment) :
    readAlignment (.text alignment.name) = .ok alignment := by
  have isTrue : (Value.text alignment.name).isTrue = true := by
    cases alignment <;> decide
  rw [readAlignment, if_pos isTrue]
  exact readName_text .alignments alignment.lower_name alignment.ofName?_name

end Document

/-! ### Directives -/

namespace Directive

structure IsWritable (line : Directive) : Prop where
  /-- A directive that redirects has a destination, and no other has. -/
  target :
    if line.kind = .destination then ∃ destination, line.target = .known destination
    else line.target = .missing

def fields (line : Directive) : List Field :=
  [⟨"type", .text line.kind.name, false⟩,
    ⟨"content", line.content.source, line.content = .absent⟩,
    ⟨"align", .text line.alignment.name, line.alignment = .unset⟩,
    .ofFlag "break" line.breakBefore,
    ⟨"destination", line.target.source, line.target = .missing⟩,
    .ofFlag "header" line.header,
    .ofText "mediaType" line.mediaType,
    .ofText "data" line.data,
    .ofFlag "reset" line.reset]

variable {line : Directive}

theorem nodup_fields (line : Directive) : (line.fields.map Field.name).Nodup := by
  simp [fields, Field.ofFlag, Field.ofText]

theorem lookup_type (line : Directive) :
    (Field.members omits line.fields).lookup "type" = some (.text line.kind.name) :=
  Field.lookup_members omits line.nodup_fields ⟨"type", .text line.kind.name, false⟩
    (by simp [fields])

theorem readContent_members (line : Directive) :
    Document.readContent (Document.memberOr (Field.members omits line.fields) "content" .null) =
      .ok line.content := by
  rw [← Document.readContent_source line.content]
  apply Field.read_memberOr Document.readContent line.nodup_fields
    ⟨"content", line.content.source, line.content = .absent⟩ (by simp [fields])
  intro absent
  rw [of_decide_eq_true absent]
  rfl

theorem readAlignment_members (line : Directive) :
    Document.readAlignment (Document.memberOr (Field.members omits line.fields) "align" .null) =
      .ok line.alignment := by
  rw [← Document.readAlignment_name line.alignment]
  apply Field.read_memberOr Document.readAlignment line.nodup_fields
    ⟨"align", .text line.alignment.name, line.alignment = .unset⟩ (by simp [fields])
  intro unset
  rw [of_decide_eq_true unset, Document.readAlignment_name]
  rfl

theorem readTarget_members (writable : line.IsWritable) :
    Document.readTarget line.kind (Field.members omits line.fields) = .ok line.target := by
  have target := writable.target
  unfold Document.readTarget
  split at target
  · rename_i redirects
    obtain ⟨destination, known⟩ := target
    have given : (Field.members omits line.fields).lookup "destination" =
        some (.text destination.name) := by
      have found := Field.lookup_members omits line.nodup_fields
        ⟨"destination", line.target.source, line.target = .missing⟩ (by simp [fields])
      simpa [Field.isWritten, known, Target.source] using found
    have read := Document.readName_text .destinations destination.lower_name
      destination.ofName?_name
    rw [if_pos redirects, given, known]
    simp only [read]
    rfl
  · rename_i stays
    rw [if_neg stays, target]

theorem readDirective_members (writable : line.IsWritable) :
    Document.readDirective (.text line.kind.name) (Field.members omits line.fields) =
      .ok line := by
  have flag (name : String) (value : Bool) (present : .ofFlag name value ∈ line.fields) :
      Document.flagOf (Field.members omits line.fields) name = value :=
    Field.flagOf_members line.nodup_fields present
  have text (name value : String) (present : .ofText name value ∈ line.fields) :
      Document.textOf (Field.members omits line.fields) name = value :=
    Field.textOf_members line.nodup_fields present
  have kind := Document.readName_text .lineTypes line.kind.lower_name line.kind.ofName?_name
  simp only [Document.readDirective, kind, readContent_members, readTarget_members writable,
    readAlignment_members, bind, Except.bind, pure, Except.pure]
  rw [flag "break" line.breakBefore (by simp [fields]),
    flag "header" line.header (by simp [fields]), flag "reset" line.reset (by simp [fields]),
    text "mediaType" line.mediaType (by simp [fields]), text "data" line.data (by simp [fields])]

theorem isExact_fields (line : Directive) : ∀ field ∈ line.fields, field.value.IsExact := by
  have content := Content.isExact_source line.content
  have target := Target.isExact_source line.target
  simp [fields, Field.ofFlag, Field.ofText, Value.IsExact, content, target]

end Directive

/-! ### Lines -/

namespace TextRun

def fields (line : TextRun) : List Field :=
  [.ofText "text" line.text,
    .ofFlag "italic" line.style.italic,
    .ofFlag "bold" line.style.bold,
    .ofFlag "underline" line.style.underline,
    .ofFlag "strikeout" line.style.strikeout,
    .ofFlag "mono" line.style.mono,
    .ofFlag "supertext" line.style.supertext,
    .ofFlag "subtext" line.style.subtext,
    .ofFlag "reset" line.reset]

theorem nodup_fields (line : TextRun) : (line.fields.map Field.name).Nodup := by
  simp [fields, Field.ofFlag, Field.ofText]

theorem readRun_members (line : TextRun) :
    Document.readRun (Field.members omits line.fields) = .ok line := by
  have flag (name : String) (value : Bool) (present : .ofFlag name value ∈ line.fields) :
      Document.flagOf (Field.members omits line.fields) name = value :=
    Field.flagOf_members line.nodup_fields present
  have text : Document.memberOr (Field.members omits line.fields) "text" (.text "") =
      .text line.text := by
    apply Field.read_memberOr id line.nodup_fields (.ofText "text" line.text) (by simp [fields])
    intro isDefault
    have empty : line.text = "" := by simpa [Field.ofText] using isDefault
    simp [Field.ofText, empty]
  rw [Document.readRun, text]
  simp only
  rw [flag "italic" line.style.italic (by simp [fields]),
    flag "bold" line.style.bold (by simp [fields]),
    flag "underline" line.style.underline (by simp [fields]),
    flag "strikeout" line.style.strikeout (by simp [fields]),
    flag "mono" line.style.mono (by simp [fields]),
    flag "supertext" line.style.supertext (by simp [fields]),
    flag "subtext" line.style.subtext (by simp [fields]),
    flag "reset" line.reset (by simp [fields])]

end TextRun

namespace Line

def IsWritable : Line → Prop
  | directive line => line.IsWritable
  | run _ => True
  | foreign _ => False

def source (omits : String → Bool) : Line → Value
  | directive line => .object (Field.members omits line.fields)
  | run line => .object (Field.members omits line.fields)
  | foreign shown => .text shown

theorem readLine_source {line : Line} (writable : line.IsWritable) :
    Document.readLine (line.source omits) = .ok line := by
  cases line with
  | directive line =>
      simp only [source, Document.readLine, Directive.lookup_type,
        Directive.readDirective_members writable]
      rfl
  | run line =>
      have noType : (Field.members omits line.fields).lookup "type" = none := by
        apply Field.lookup_members_of_notMem
        simp [TextRun.fields, Field.ofFlag, Field.ofText]
      simp only [source, Document.readLine, noType, TextRun.readRun_members]
      rfl
  | foreign shown => exact writable.elim

theorem isExact_source {line : Line} (writable : line.IsWritable) :
    (line.source omits).IsExact := by
  cases line with
  | directive line =>
      exact Field.isExact_members line.nodup_fields line.isExact_fields
  | run line =>
      apply Field.isExact_members line.nodup_fields
      simp [TextRun.fields, Field.ofFlag, Field.ofText, Value.IsExact]
  | foreign shown => exact writable.elim

end Line

/-! ### Documents -/

namespace Document

theorem readLines_source (number : Nat) {lines : List Line}
    (writable : ∀ line ∈ lines, line.IsWritable) :
    readLines number (lines.map (Line.source omits)) = .ok lines := by
  induction lines generalizing number with
  | nil => rfl
  | cons line others inductionHypothesis =>
      have read : readLine (line.source omits) = .ok line :=
        Line.readLine_source (writable line (by simp))
      have following := inductionHypothesis (number + 1) fun other member =>
        writable other (List.mem_cons_of_mem _ member)
      rw [List.map_cons, readLines, read, following]
      rfl

theorem textsOf?_source (values : List String) : textsOf? (values.map .text) = some values := by
  induction values with
  | nil => rfl
  | cons value others inductionHypothesis =>
      rw [List.map_cons, textsOf?, inductionHypothesis]
      rfl

/-- A metadata term as a member. -/
def termSource (term : String × List String) : String × Value :=
  (term.1, .array (term.2.map .text))

theorem readTerms_source (terms : List (String × List String)) :
    readTerms (terms.map termSource) = .ok terms := by
  induction terms with
  | nil => rfl
  | cons term others inductionHypothesis =>
      rw [List.map_cons, termSource, readTerms]
      simp only [termValues?, textsOf?_source, inductionHypothesis]
      rfl

theorem isExact_terms {terms : List (String × List String)}
    (distinct : (terms.map Prod.fst).Nodup) : (Value.object (terms.map termSource)).IsExact := by
  constructor
  · apply membersExact_of_forall
    intro entry member
    obtain ⟨term, -, rfl⟩ := List.mem_map.mp member
    apply areExact_of_forall
    simp [Value.IsExact]
  · simpa [termSource, Function.comp_def] using distinct

def features (document : Document) : List Field :=
  [⟨"dcmeta", .flag document.showsMetadata, document.showsMetadata⟩]

def fields (omits : String → Bool) (document : Document) : List Field :=
  [⟨"lines", .array (document.lines.map (Line.source omits)), document.lines.isEmpty⟩,
    ⟨"metadata", .object (document.metadata.map termSource), document.metadata.isEmpty⟩,
    ⟨"features", .object (Field.members omits document.features), document.showsMetadata⟩]

def source (omits : String → Bool) (document : Document) : Value :=
  .object (Field.members omits (document.fields omits))

/-- A document of which nothing is lost in its text. -/
structure IsWritable (document : Document) : Prop where
  lines : ∀ line ∈ document.lines, line.IsWritable
  terms : (document.metadata.map Prod.fst).Nodup

variable {document : Document}

theorem nodup_fields (omits : String → Bool) (document : Document) :
    ((document.fields omits).map Field.name).Nodup := by
  simp [fields]

theorem nodup_features (document : Document) : (document.features.map Field.name).Nodup := by
  simp [features]

theorem sourceLines_members (document : Document) :
    sourceLines (Field.members omits (document.fields omits)) =
      .ok (document.lines.map (Line.source omits)) := by
  have given : memberOr (Field.members omits (document.fields omits)) "lines" (.array []) =
      .array (document.lines.map (Line.source omits)) := by
    apply Field.read_memberOr id (document.nodup_fields omits)
      ⟨"lines", .array (document.lines.map (Line.source omits)), document.lines.isEmpty⟩
      (by simp [fields])
    intro isDefault
    simp [List.isEmpty_iff.mp isDefault]
  rw [sourceLines, given]

theorem readMetadata_members (document : Document) :
    readMetadata (memberOr (Field.members omits (document.fields omits)) "metadata"
      (.object [])) = .ok document.metadata := by
  rw [← readTerms_source document.metadata]
  apply Field.read_memberOr readMetadata (document.nodup_fields omits)
    ⟨"metadata", .object (document.metadata.map termSource), document.metadata.isEmpty⟩
    (by simp [fields])
  intro isDefault
  rw [List.isEmpty_iff.mp isDefault]
  rfl

theorem readFeatures_features (document : Document) :
    readFeatures (.object (Field.members omits document.features)) =
      .ok document.showsMetadata := by
  have shown : (memberOr (Field.members omits document.features) "dcmeta" (.flag true)).isTrue =
      document.showsMetadata := by
    apply Field.read_memberOr Value.isTrue document.nodup_features
      ⟨"dcmeta", .flag document.showsMetadata, document.showsMetadata⟩ (by simp [features])
    intro isDefault
    exact isDefault.symm
  rw [readFeatures, shown]

theorem readFeatures_members (document : Document) :
    readFeatures (memberOr (Field.members omits (document.fields omits)) "features"
      (.object [])) = .ok document.showsMetadata := by
  have features : readFeatures (.object (Field.members omits document.features)) =
      .ok document.showsMetadata := readFeatures_features document
  rw [← features]
  apply Field.read_memberOr readFeatures (document.nodup_fields omits)
    ⟨"features", .object (Field.members omits document.features), document.showsMetadata⟩
    (by simp [fields])
  intro isDefault
  have shown : document.showsMetadata = true := isDefault
  rw [features, shown]
  rfl

theorem ofValue_source (writable : document.IsWritable) :
    ofValue (document.source omits) = .ok document := by
  simp only [ofValue, source, sourceMembers, sourceLines_members,
    readLines_source 0 writable.lines, readMetadata_members, readFeatures_members, unlocated,
    mapError_ok, bind, Except.bind, pure, Except.pure]

theorem isExact_source (writable : document.IsWritable) : (document.source omits).IsExact := by
  apply Field.isExact_members (document.nodup_fields omits)
  have lines : AreExact (document.lines.map (Line.source omits)) := by
    apply areExact_of_forall
    intro value member
    obtain ⟨line, present, rfl⟩ := List.mem_map.mp member
    exact Line.isExact_source (writable.lines line present)
  have terms := isExact_terms writable.terms
  have features : (Value.object (Field.members omits document.features)).IsExact := by
    apply Field.isExact_members document.nodup_features
    simp [Document.features, Value.IsExact]
  intro field present
  simp only [fields, List.mem_cons, List.not_mem_nil, or_false] at present
  rcases present with rfl | rfl | rfl
  · exact lines
  · exact terms
  · exact features

/-- A document in the interchange form, with its text set in a style and with spacing
around it, and without the members of some names where they can be left out. -/
def interchange (style : Json.Style) (before after : Json.Gap) (omits : String → Bool)
    (document : Document) : String :=
  style.print before after (document.source omits)

/-- Reading undoes writing. -/
theorem parse_interchange (style : Json.Style) (before after : Json.Gap) (omits : String → Bool)
    (writable : document.IsWritable) :
    parse (document.interchange style before after omits) = .ok document := by
  have exact : (document.source omits).IsExact := isExact_source writable
  have value := Json.parse_print style before after exact
  have read : ofValue (document.source omits) = .ok document := ofValue_source writable
  simp only [parse, interchange, value, read, mapError_ok, bind, Except.bind]

def noGap : Json.Gap := ⟨[], by simp⟩

def spaceGap : Json.Gap := ⟨[' '], by simp [isSpacing]⟩

def lineGap : Json.Gap := ⟨['\n'], by simp [isSpacing]⟩

/-- One space behind commas and colons, and nothing but ASCII in strings. -/
def ordinaryStyle : Json.Style where
  afterOpening := noGap
  beforeClosing := noGap
  beforeComma := noGap
  afterComma := spaceGap
  beforeColon := noGap
  afterColon := spaceGap
  escapes c := 0x7F ≤ c.toNat

example :
    interchange ordinaryStyle noGap noGap (fun _ => true)
        ⟨[.run ⟨"\"é\n", { RunStyle.plain with bold := true }, false⟩], [("title", ["a"])], true⟩ =
      "\x7b\"lines\": [\x7b\"text\": \"\\\"\\u00e9\\n\", \"bold\": true\x7d], " ++
        "\"metadata\": \x7b\"title\": [\"a\"]\x7d\x7d" := by
  decide +kernel

/-- A document with lines of both kinds, with each kind of content and with text that has to
be escaped. -/
def notice : Document where
  lines := [
    .directive { Directive.plain .newSection with alignment := .center, breakBefore := true },
    .run ⟨"\"Sous\\sol\"\n\u0001 é😀", { RunStyle.plain with bold := true }, true⟩,
    .directive { Directive.plain .table with content := .number (-12) },
    .directive { Directive.plain .destination with target := .known .cell, header := true },
    .directive { Directive.plain .link with content := .flag true, reset := true },
    .directive { Directive.plain .blob with mediaType := "image/png", data := "AA==" }]
  metadata := [("title", ["Notice", ""]), ("creator", [])]
  showsMetadata := false

theorem parse_interchange_notice :
    notice.IsWritable ∧
      parse (notice.interchange ordinaryStyle noGap lineGap fun _ => true) = .ok notice := by
  have writable : notice.IsWritable := by
    refine ⟨?_, by decide⟩
    simp only [notice, List.forall_mem_cons, List.not_mem_nil, false_implies, implies_true,
      and_true]
    exact ⟨⟨rfl⟩, trivial, ⟨rfl⟩, ⟨.cell, rfl⟩, ⟨rfl⟩, ⟨rfl⟩⟩
  exact ⟨writable, parse_interchange _ _ _ _ writable⟩

end Document

end Folio
