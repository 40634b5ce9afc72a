import Folio.Proofs.Refusals
import Folio.Proofs.Uploads

/-!
# What the command says where the service refuses

The service answers that it cannot process an upload when its bytes cannot be decoded,
when the text is no document and when the document cannot be rendered.  On a file with
the same bytes the command complains and ends, with three exceptions: an encoding that
the machine does not know or that complains of more than the bytes, a file in UTF-16 that
lacks its mark, and a class of the body without a name in front of a document that can be
read.  In these it breaks off.  Either way no file is touched.

In an encoding that is not described here a machine may make something else of a file than
of bytes at hand.  If that is a text that is not refused, the command does not complain.
-/

namespace Folio

open Text

/-! ### Refused texts -/

/-- A text that is no document, or a document that cannot be rendered. -/
inductive IsRefused (text : String) : Prop
  | reading {error : ParsingError} (unread : Document.parse text = .error (.refused error))
  | rendering {document : Document} {error : RenderError}
      (read : Document.parse text = .ok document)
      (unrendered : Draft.start.run document.lines = .error (.refused error))

section Failures

variable {Cause Wider Result : Type}

theorem mapError_map_eq_refused_iff (widen : Cause → Wider)
    (outcome : Except (Failure Cause) Result) (cause : Wider) :
    outcome.mapError (·.map widen) = .error (.refused cause) ↔
      ∃ narrow, outcome = .error (.refused narrow) ∧ widen narrow = cause := by
  cases outcome with
  | error failure => cases failure <;> simp [Failure.map]
  | ok result => simp

end Failures

/-- The options of a page have no say in what is refused. -/
theorem convert_refused_iff (options : Options) (text : String) :
    (∃ error, convert options text = .error (.refused error)) ↔ IsRefused text := by
  have unrendered (document : Document) (error : RenderError) :
      Render.render options document = .error (.refused error) ↔
        Draft.start.run document.lines = .error (.refused error) := by
    rw [Render.render, Draft.renderTree_eq_page]
    cases Draft.start.run document.lines <;> simp [Except.map, bind, Except.bind, pure, Except.pure]
  simp only [convert, bind_eq_error_iff, mapError_map_eq_refused_iff, mapError_eq_ok_iff,
    unrendered]
  constructor
  · rintro ⟨_, ⟨error, unread, -⟩ | ⟨document, read, error, stopped, -⟩⟩
    · exact .reading unread
    · exact .rendering read stopped
  · intro refused
    cases refused with
    | reading unread => exact ⟨_, .inl ⟨_, unread, rfl⟩⟩
    | rendering read stopped => exact ⟨_, .inr ⟨_, read, _, stopped, rfl⟩⟩

theorem isRefused_empty : IsRefused "" := by
  obtain ⟨error, unread⟩ : ∃ error, Document.parse "" = .error (.refused error) := ⟨_, rfl⟩
  exact .reading unread

/-- Unifying line ends changes no document, and a text that is none stays none. -/
theorem Document.parse_unifyNewlines (text : String) :
    Document.parse (String.ofList (Text.unifyNewlines text.toList)) = Document.parse text ∨
      ∃ error other,
        Document.parse (String.ofList (Text.unifyNewlines text.toList)) =
            .error (.refused other) ∧
          Document.parse text = .error (.refused error) := by
  unfold Document.parse
  rcases Json.parse_unifyNewlines text with same | ⟨fault, other, unified, refused⟩
  · exact .inl (by rw [same])
  · exact .inr ⟨_, _, by rw [unified]; rfl, by rw [refused]; rfl⟩

theorem IsRefused.of_parse_eq {text other : String} (refused : IsRefused text)
    (same : Document.parse other = Document.parse text) : IsRefused other := by
  cases refused with
  | reading unread => exact .reading (same.trans unread)
  | rendering read unrendered => exact .rendering (same.trans read) unrendered

theorem isRefused_unifyNewlines_iff (source : List Symbol) :
    IsRefused (Json.firstPicture (Symbol.unifyNewlines source)) ↔
      IsRefused (Json.firstPicture source) := by
  rw [Json.firstPicture_unifyNewlines]
  rcases Document.parse_unifyNewlines (Json.firstPicture source) with
    same | ⟨error, other, unified, unread⟩
  · exact ⟨fun refused => refused.of_parse_eq same.symm, fun refused => refused.of_parse_eq same⟩
  · exact iff_of_true (.reading unified) (.reading unread)

theorem Document.parse_unifyNewlines_eq_ok_iff (source : List Symbol) (document : Document) :
    Document.parse (Json.firstPicture (Symbol.unifyNewlines source)) = .ok document ↔
      Document.parse (Json.firstPicture source) = .ok document := by
  rw [Json.firstPicture_unifyNewlines]
  rcases Document.parse_unifyNewlines (Json.firstPicture source) with
    same | ⟨error, other, unified, unread⟩
  · rw [same]
  · simp [unified, unread]

/-- Publishing a text refuses what converting it does. -/
theorem publish_refused_iff (options : Options) (source : List Symbol) :
    (∃ error, publish options source = .error (.refused error)) ↔
      IsRefused (Json.firstPicture source) := by
  rw [← convert_refused_iff options, publish]
  cases convert options (Json.firstPicture source) <;> simp [Except.map]

/-! ### Bytes of a file that are not decoded -/

namespace Encoding

theorem settle_eq_error {encoding : String} {source : List UInt8}
    {decoded : Except BadBytes (List Char)} {fault : TextFault}
    (failed : settle encoding source decoded = .error fault) :
    ∃ place, fault = .undecodable place := by
  cases decoded with
  | ok characters => cases failed
  | error bad =>
      cases failed
      exact ⟨_, rfl⟩

/-- With a known encoding only the bytes can be at fault. -/
theorem Codec.decode_eq_error {codec : Codec} {bytes : List UInt8} {fault : TextFault}
    (failed : codec.decode bytes = .error fault) : ∃ place, fault = .undecodable place := by
  cases codec with
  | utf16 =>
      rw [Codec.decode] at failed
      split at failed <;> exact settle_eq_error failed
  | utf8 | utf8Marked | ascii | latin1 | windows1252 | utf16Ordered => exact settle_eq_error failed

/-- The bytes of a file are decoded like bytes at hand, but for part of a mark, which is
no text, and for a mark that is lacking. -/
theorem decodeFile_cases (codec : Codec) (bytes : List UInt8) :
    codec.decodeFile bytes = codec.decode bytes ∨
      (codec.decodeFile bytes = .ok "" ∧ ∀ text, codec.decode bytes = .ok text → text = "") ∨
      (codec = .utf16 ∧ bytes ≠ [] ∧ Utf16.marked? bytes = none) ∧
        (∃ text, codec.decode bytes = .ok text) ∧
        codec.decodeFile bytes = .error .missingMark := by
  cases codec with
  | utf8Marked =>
      rw [Codec.decodeFile]
      split
      · rename_i partOfMark
        obtain ⟨short, part⟩ : bytes.length < Utf8.mark.length ∧ bytes <+: Utf8.mark := by
          simpa using partOfMark
        exact .inr (.inl ⟨rfl, fun text => decode_partOfMark short part⟩)
      · exact .inl rfl
  | utf16 =>
      rw [Codec.decodeFile]
      cases decoded : Codec.utf16.decode bytes with
      | error fault => exact .inl rfl
      | ok text =>
          by_cases lacks : bytes ≠ [] ∧ Utf16.marked? bytes = none
          · refine .inr (.inr ⟨⟨rfl, lacks⟩, ⟨text, rfl⟩, ?_⟩)
            simp [bind, Except.bind, lacks.1, lacks.2, throw, throwThe, MonadExceptOf.throw]
          · left
            have complete : ((Utf16.marked? bytes).isNone && !bytes.isEmpty) = false := by
              rw [not_and_or, not_not] at lacks
              rcases lacks with rfl | marked
              · simp
              · simp [marked]
            simp [bind, Except.bind, complete, pure, Except.pure]
  | utf8 | ascii | latin1 | windows1252 | utf16Ordered => exact .inl rfl

end Encoding

/-! ### What the service refuses -/

namespace Service

/-- The status of an answer, if there is one. -/
def statusOf? : Except Rejection Response → Option Nat
  | .ok _ => some okStatus
  | .error rejection => rejection.status?

/-- An upload cannot be processed when its bytes are not decoded, other than for the null
character in a name, and when the text is refused. -/
theorem statusOf?_convertFileWith {codecs : Encoding.Codecs} {bytes : List UInt8}
    {filename : Option String} {bodyOnly : Bool} {encoding : String}
    (unprocessable :
      statusOf? (convertFileWith codecs bytes filename bodyOnly encoding) = some 422) :
    (∃ fault, Encoding.decode codecs encoding bytes = .error fault ∧ fault ≠ .nullInName) ∨
      ∃ source, Encoding.decode codecs encoding bytes = .ok source ∧
        IsRefused (Json.firstPicture source) := by
  unfold convertFileWith at unprocessable
  cases decoded : Encoding.decode codecs encoding bytes with
  | error fault =>
      refine .inl ⟨fault, rfl, ?_⟩
      rintro rfl
      simp [decoded, bind, Except.bind, statusOf?, Rejection.status?] at unprocessable
  | ok source =>
      refine .inr ⟨source, rfl, ?_⟩
      simp only [decoded, mapError_ok, bind, Except.bind, page, pure, Except.pure]
        at unprocessable
      cases published : publish (optionsFor bodyOnly) source with
      | ok made =>
          cases made <;> simp [published, statusOf?, okStatus, Rejection.status?] at unprocessable
      | error failure =>
          cases failure with
          | numeral fault => simp [published, statusOf?, Rejection.status?] at unprocessable
          | refused error => exact (publish_refused_iff _ source).mp ⟨error, published⟩

variable {codecs : Encoding.Codecs} {bytes : List UInt8} {filename : Option String}
  {bodyOnly : Bool} {encoding : String}

/-- In an encoding that is described here, the file of such an upload holds a refused text
too, or bytes that are not decoded either, or it lacks a mark. -/
theorem file_of_unprocessable {codec : Encoding.Codec} (known : Encoding.IsNameOf encoding codec)
    (unprocessable :
      statusOf? (convertFileWith codecs bytes filename bodyOnly encoding) = some 422) :
    (∃ source, Encoding.decodeFile codecs encoding bytes = .ok source ∧
        IsRefused (Json.firstPicture source)) ∨
      (∃ place fault, Encoding.decodeFile codecs encoding bytes = .error (.undecodable place) ∧
        Encoding.decode codecs encoding bytes = .error fault) ∨
      Encoding.LacksMark encoding bytes ∧
        ∃ source, Encoding.decode codecs encoding bytes = .ok source := by
  have atHand := Encoding.decode_of_isNameOf known codecs bytes
  have inFile := Encoding.decodeFile_of_isNameOf known codecs bytes
  rw [atHand, inFile]
  rcases statusOf?_convertFileWith unprocessable with
    ⟨fault, undecoded, -⟩ | ⟨source, decoded, refused⟩
  · cases failed : codec.decode bytes with
    | ok text => simp [atHand, failed, Except.map] at undecoded
    | error fault =>
        obtain ⟨place, rfl⟩ := Encoding.Codec.decode_eq_error failed
        rcases Encoding.decodeFile_cases codec bytes with
          same | ⟨empty, -⟩ | ⟨-, ⟨text, decoded⟩, -⟩
        · exact .inr (.inl ⟨place, _, by rw [same, failed]; rfl, rfl⟩)
        · -- Part of a mark is an empty file, which is no document.
          exact .inl ⟨[], by rw [empty]; rfl, isRefused_empty⟩
        · simp [failed] at decoded
  · cases here : codec.decode bytes with
    | error fault => simp [atHand, here, Except.map] at decoded
    | ok text =>
        obtain rfl : Symbol.ofText text = source := by
          simpa [atHand, here, Except.map] using decoded
        rcases Encoding.decodeFile_cases codec bytes with
          same | ⟨empty, only⟩ | ⟨⟨rfl, lacks⟩, -, -⟩
        · exact .inl ⟨_, by rw [same, here]; rfl, refused⟩
        · exact .inl ⟨_, by rw [empty, only text here]; rfl, refused⟩
        · exact .inr (.inr ⟨⟨known, lacks⟩, _, rfl⟩)

end Service

/-! ### What a run makes of it -/

namespace Command

open Files

/-- What makes a run break off on bytes that the service refuses. -/
inductive BreaksOff (codecs : Encoding.Codecs) (request : Request) (encoding : String)
    (bytes : List UInt8) : Prop
  | unread {fault : Encoding.TextFault} (foreign : Encoding.Codec.ofName? encoding = none)
      (failed : Encoding.decodeFile codecs encoding bytes = .error fault)
      (unreported : (Trouble.source fault).isReported = false)
  | missingMark {source : List Symbol} (lacks : Encoding.LacksMark encoding bytes)
      (decoded : Encoding.decode codecs encoding bytes = .ok source)
  | namelessClass {place : Nat} {source : List Symbol} {document : Document}
      (nameless : request.namelessClass = some place)
      (decoded : Encoding.decodeFile codecs encoding bytes = .ok source)
      (read : Document.parse (Json.firstPicture source) = .ok document)

/-- In an encoding that is not described here a machine reads a text from a file that is
not refused. -/
def ReadsAnyway (codecs : Encoding.Codecs) (encoding : String) (bytes : List UInt8) : Prop :=
  Encoding.Codec.ofName? encoding = none ∧
    ∃ source, Encoding.decodeFile codecs encoding bytes = .ok source ∧
      ¬ IsRefused (Json.firstPicture source)

/-- A page is not made, and whether that is reported depends on a condition. -/
def Fails (page : Except Trouble (Except Encoding.EncodeFault String)) (breaks : Prop) : Prop :=
  ∃ trouble, page = .error trouble ∧ (trouble.isReported = true ↔ ¬ breaks)

variable {codecs : Encoding.Codecs} {request : Request} {encoding : String} {bytes : List UInt8}

/-- A text that is refused is reported unless a class without a name comes to light
first. -/
theorem fails_pageOf {source : List Symbol} (refused : IsRefused (Json.firstPicture source)) :
    Fails (request.pageOf source).2
      (∃ place document, request.namelessClass = some place ∧
        Document.parse (Json.firstPicture source) = .ok document) := by
  cases nameless : request.namelessClass with
  | none =>
      obtain ⟨error, published⟩ := (publish_refused_iff request.options source).mpr refused
      refine ⟨.document (.refused error), ?_, by simp [Trouble.isReported]⟩
      rw [snd_pageOf nameless, published]
      rfl
  | some place =>
      rw [snd_pageOf_nameless nameless]
      cases refused with
      | @reading error unread =>
          exact ⟨.document (.refused (.parsing error)), by rw [unread]; rfl,
            by simp [Trouble.isReported, unread]⟩
      | rendering read unrendered =>
          exact ⟨.namelessClass place, by rw [read], by simp [Trouble.isReported, read]⟩

/-- Nothing is reported of a text that is not refused. -/
theorem isReported_of_pageOf {source : List Symbol}
    (accepted : ¬ IsRefused (Json.firstPicture source)) {trouble : Trouble}
    (failed : (request.pageOf source).2 = .error trouble) : trouble.isReported = false := by
  cases nameless : request.namelessClass with
  | none =>
      rw [snd_pageOf nameless] at failed
      cases published : publish request.options source with
      | ok page => simp [published] at failed
      | error failure =>
          cases failure with
          | refused error =>
              exact absurd ((publish_refused_iff _ source).mp ⟨error, published⟩) accepted
          | numeral fault =>
              simp only [published, mapError_error, Except.error.injEq] at failed
              rw [← failed]
              rfl
  | some place =>
      rw [snd_pageOf_nameless nameless] at failed
      cases read : Document.parse (Json.firstPicture source) with
      | ok document =>
          simp only [read, Except.error.injEq] at failed
          rw [← failed]
          rfl
      | error failure =>
          cases failure with
          | refused error => exact absurd (.reading read) accepted
          | numeral fault =>
              simp only [read, Except.error.injEq] at failed
              rw [← failed]
              rfl

theorem Fails.congr {page : Except Trouble (Except Encoding.EncodeFault String)}
    {breaks other : Prop} (fails : Fails page breaks) (same : breaks ↔ other) :
    Fails page other := by
  obtain ⟨trouble, failed, reported⟩ := fails
  exact ⟨trouble, failed, reported.trans (not_congr same)⟩

/-- A text that is refused is found in the file. -/
theorem fails_of_read (named : request.encoding = some encoding) {source : List Symbol}
    (read : Encoding.decodeFile codecs encoding bytes = .ok source)
    (refused : IsRefused (Json.firstPicture source)) :
    Fails (request.page codecs bytes).2 (BreaksOff codecs request encoding bytes) := by
  rw [snd_page named, read]
  refine (fails_pageOf ((isRefused_unifyNewlines_iff source).mpr refused)).congr ?_
  simp only [Document.parse_unifyNewlines_eq_ok_iff]
  constructor
  · rintro ⟨place, document, nameless, parsed⟩
    exact .namelessClass nameless read parsed
  · intro breaks
    cases breaks with
    | unread _ failed _ => simp [read] at failed
    | missingMark lacks decoded => simp [Encoding.decodeFile_of_lacksMark lacks decoded] at read
    | namelessClass nameless decoded parsed =>
        obtain rfl := Except.ok.inj (read.symm.trans decoded)
        exact ⟨_, _, nameless, parsed⟩

/-- The file is not decoded. -/
theorem fails_of_unread (named : request.encoding = some encoding) {fault : Encoding.TextFault}
    (failed : Encoding.decodeFile codecs encoding bytes = .error fault)
    (reported : (Trouble.source fault).isReported = true ↔
      ¬ BreaksOff codecs request encoding bytes) :
    Fails (request.page codecs bytes).2 (BreaksOff codecs request encoding bytes) :=
  ⟨.source fault, by rw [snd_page named, failed], reported⟩

theorem fails_of_unprocessable (named : request.encoding = some encoding)
    {filename : Option String} {bodyOnly : Bool}
    (unprocessable : Service.statusOf?
      (Service.convertFileWith codecs bytes filename bodyOnly encoding) = some 422)
    (stopped : ¬ ReadsAnyway codecs encoding bytes) :
    Fails (request.page codecs bytes).2 (BreaksOff codecs request encoding bytes) := by
  rcases Encoding.isNameOf_cases encoding with ⟨codec, known⟩ | ⟨-, foreign⟩ | null
  · rcases Service.file_of_unprocessable known unprocessable with
      ⟨source, read, refused⟩ | ⟨place, fault, failed, undecoded⟩ | ⟨lacks, source, decoded⟩
    · exact fails_of_read named read refused
    · refine fails_of_unread named failed (iff_of_true rfl ?_)
      intro breaks
      cases breaks with
      | unread foreign _ _ => simp [known.known] at foreign
      | missingMark _ decoded => simp [undecoded] at decoded
      | namelessClass _ decoded _ => simp [failed] at decoded
    · have breaks : BreaksOff codecs request encoding bytes := .missingMark lacks decoded
      exact fails_of_unread named (Encoding.decodeFile_of_lacksMark lacks decoded)
        (iff_of_false (by simp [Trouble.isReported]) (not_not_intro breaks))
  · cases read : Encoding.decodeFile codecs encoding bytes with
    | ok source =>
        have refused : IsRefused (Json.firstPicture source) := by
          by_contra accepted
          exact stopped ⟨foreign, source, read, accepted⟩
        exact fails_of_read named read refused
    | error fault =>
        refine fails_of_unread named read ?_
        rw [← Bool.not_eq_false, not_iff_not]
        refine ⟨fun unreported => .unread foreign read unreported, fun breaks => ?_⟩
        cases breaks with
        | unread _ failed unreported =>
            obtain rfl := Except.error.inj (read.symm.trans failed)
            exact unreported
        | missingMark lacks _ => simp [lacks.1.known] at foreign
        | namelessClass _ decoded _ => simp [read] at decoded
  · have undecoded : Encoding.decode codecs encoding bytes = .error .nullInName := by
      rw [Encoding.decode, if_pos null]
    rcases Service.statusOf?_convertFileWith unprocessable with
      ⟨fault, failed, other⟩ | ⟨source, decoded, -⟩
    · exact absurd (Except.error.inj (failed.symm.trans undecoded)) other
    · simp [undecoded] at decoded

/-! ### What is printed -/

/-- A text that is made of whole lines. -/
def IsLines (text : String) : Prop := text = "" ∨ ∃ front, text = front ++ "\n"

/-- A line of a text begins with the announcement of an error. -/
def HoldsError (text : String) : Prop :=
  ∃ before message, text = before ++ "Error: " ++ message ∧ IsLines before

theorem IsLines.append {first second : String} (firstLines : IsLines first)
    (secondLines : IsLines second) : IsLines (first ++ second) := by
  rcases secondLines with rfl | ⟨front, rfl⟩
  · rwa [String.append_empty]
  · exact .inr ⟨first ++ front, (String.append_assoc).symm⟩

theorem isLines_join {texts : List String} (lines : ∀ text ∈ texts, IsLines text) :
    IsLines (String.join texts) := by
  induction texts with
  | nil => exact .inl rfl
  | cons text rest inductionHypothesis =>
      rw [String.join_cons]
      exact (lines text List.mem_cons_self).append
        (inductionHypothesis fun other member => lines other (List.mem_cons_of_mem _ member))

theorem isLines_write (settings : Log.Settings) (record : Log.Record) :
    IsLines (settings.write record) := by
  unfold Log.Settings.write
  split
  · exact .inl rfl
  · split
    · split
      · exact .inr ⟨record.text, rfl⟩
      · exact .inl rfl
    · refine isLines_join fun text member => ?_
      obtain ⟨handler, -, rfl⟩ := List.mem_map.mp member
      exact .inr ⟨_, rfl⟩

theorem isLines_logged (request : Request) (reports : List Progress) :
    IsLines (request.logged reports) := by
  refine isLines_join fun text member => ?_
  obtain ⟨record, -, rfl⟩ := List.mem_map.mp member
  exact isLines_write request.log record

/-- A run that has no page to write leaves all files alone. -/
theorem runWith_of_fails {words : List String} {tree : Tree} {breaks : Prop}
    (asked : Request.ofWords words = .ok request) (present : tree.read request.input = .ok bytes)
    (fails : Fails (request.page codecs bytes).2 breaks) :
    (runWith codecs Tree.access words tree).2 = tree ∧
      ((runWith codecs Tree.access words tree).1.ending = .finished 1 ∧
          HoldsError (runWith codecs Tree.access words tree).1.stderr ↔ ¬ breaks) ∧
      (breaks →
        ∃ trouble, (runWith codecs Tree.access words tree).1.ending = .broken trouble) := by
  obtain ⟨trouble, failed, reported⟩ := fails
  rw [runWith_of_present asked present, perform_of_present present]
  generalize request.page codecs bytes = paging at failed
  obtain ⟨reports, made⟩ := paging
  cases failed
  refine ⟨rfl, ?_, ?_⟩
  · rw [← reported]
    cases isReported : trouble.isReported with
    | true =>
        refine iff_of_true ⟨by rw [ending_of_error, isReported]; rfl, ?_⟩ rfl
        refine ⟨request.logged (reports ++ [.failed]), trouble.message ++ "\n", ?_,
          isLines_logged request _⟩
        simp only [Request.outcome, isReported, if_true, String.append_assoc]
    | false =>
        refine iff_of_false ?_ (by simp)
        rintro ⟨finished, -⟩
        rw [ending_of_error, isReported] at finished
        cases finished
  · intro broken
    have unreported : trouble.isReported = false := by
      simpa using fun isReported => reported.mp isReported broken
    exact ⟨trouble, by rw [ending_of_error, unreported]; rfl⟩

/-- A run does not complain of a text that it reads anyway. -/
theorem runWith_of_readsAnyway {words : List String} {tree : Tree}
    (asked : Request.ofWords words = .ok request) (named : request.encoding = some encoding)
    (present : tree.read request.input = .ok bytes) (writable : IsWritable tree request.output)
    (reads : ReadsAnyway codecs encoding bytes) :
    (runWith codecs Tree.access words tree).1.ending ≠ .finished 1 := by
  obtain ⟨-, source, read, accepted⟩ := reads
  have paging : (request.page codecs bytes).2 =
      (request.pageOf (Symbol.unifyNewlines source)).2 := by
    rw [snd_page named, read]
  cases made : (request.pageOf (Symbol.unifyNewlines source)).2 with
  | ok page =>
      rw [(runWith_of_page_ok asked present writable (paging.trans made)).1]
      cases page <;> rintro ⟨⟩
  | error trouble =>
      have unreported := isReported_of_pageOf
        (mt (isRefused_unifyNewlines_iff source).mp accepted) made
      rw [runWith_of_page_error asked present (paging.trans made), unreported]
      rintro ⟨⟩

/-- Where the service cannot process an upload, a run of the command on a file with the
same bytes and in the same encoding leaves all files as they are.  It ends with code 1
and says what is wrong, unless the machine does not know the encoding or complains of more
than the bytes, a mark is lacking in front of bytes that can be decoded without it, or a
class without a name comes to light; then it breaks off.  Only where the machine reads a
text from the file that is not refused, which can happen with an encoding that is not
described here, a run that can write its output does not complain. -/
theorem run_complains_iff {words : List String} {tree : Tree}
    (asked : Request.ofWords words = .ok request) (named : request.encoding = some encoding)
    (present : tree.read request.input = .ok bytes) {filename : Option String} {bodyOnly : Bool}
    (unprocessable : Service.statusOf?
      (Service.convertFileWith codecs bytes filename bodyOnly encoding) = some 422) :
    (¬ ReadsAnyway codecs encoding bytes →
      (runWith codecs Tree.access words tree).2 = tree ∧
        ((runWith codecs Tree.access words tree).1.ending = .finished 1 ∧
            HoldsError (runWith codecs Tree.access words tree).1.stderr ↔
          ¬ BreaksOff codecs request encoding bytes) ∧
        (BreaksOff codecs request encoding bytes →
          ∃ trouble, (runWith codecs Tree.access words tree).1.ending = .broken trouble)) ∧
      (ReadsAnyway codecs encoding bytes → IsWritable tree request.output →
        (runWith codecs Tree.access words tree).1.ending ≠ .finished 1) :=
  ⟨fun stopped =>
      runWith_of_fails asked present (fails_of_unprocessable named unprocessable stopped),
    fun reads writable => runWith_of_readsAnyway asked named present writable reads⟩

/-- A machine that can ask for the encoding of its language, here ASCII, when it reads a
file and only then. -/
def asciiLocale : Encoding.Codecs where
  decode name _ := .error (.unknownEncoding name)
  decodeFile name bytes :=
    if name = "locale" then (Encoding.Codec.ascii.decode bytes).map Symbol.ofText
    else .error (.unknownEncoding name)

/-- A file with no more than part of a mark cannot be decoded when it is uploaded, and is
an empty file to the command, which complains of that.  In the encoding of the language
the service decodes nothing, and the command reads a document. -/
theorem run_complains_iff_partOfMark :
    let words (encoding : String) := commandLine "a" "b" encoding false
    let request (encoding : String) : Request :=
      .likeService (.ofText "a") (.ofText "b") false encoding false
    let tree (bytes : List UInt8) : Tree := ⟨[], .file "a" bytes .empty⟩
    let outcome (encoding : String) (bytes : List UInt8) :=
      runWith asciiLocale Tree.access (words encoding) (tree bytes)
    let answer (encoding : String) (bytes : List UInt8) :=
      Service.convertFileWith asciiLocale bytes none false encoding
    Request.ofWords (words "utf-8-sig") = .ok (request "utf-8-sig") ∧
      (request "utf-8-sig").encoding = some "utf-8-sig" ∧
      (tree [0xEF, 0xBB]).read (request "utf-8-sig").input = .ok [0xEF, 0xBB] ∧
      Service.statusOf? (answer "utf-8-sig" [0xEF, 0xBB]) = some 422 ∧
      (outcome "utf-8-sig" [0xEF, 0xBB]).2 = tree [0xEF, 0xBB] ∧
      (outcome "utf-8-sig" [0xEF, 0xBB]).1.ending = .finished 1 ∧
      HoldsError (outcome "utf-8-sig" [0xEF, 0xBB]).1.stderr ∧
      Service.statusOf? (answer "locale" [0x5B, 0x5D]) = some 422 ∧
      ReadsAnyway asciiLocale "locale" [0x5B, 0x5D] ∧
      IsWritable (tree [0x5B, 0x5D]) (.ofText "b") ∧
      (outcome "locale" [0x5B, 0x5D]).1.ending ≠ .finished 1 := by
  intro words request tree outcome answer
  have asked (encoding : String) (noDash : encoding.toList.head? ≠ some '-') :
      Request.ofWords (words encoding) = .ok (request encoding) :=
    ofWords_commandLine false (by decide) (by decide) (by
      simp only [List.forall_mem_cons, List.not_mem_nil, false_implies, implies_true, and_true]
      exact ⟨by decide, by decide, noDash⟩)
  have present : (tree [0xEF, 0xBB]).read (request "utf-8-sig").input = .ok [0xEF, 0xBB] := by
    decide +kernel
  have presentToo : (tree [0x5B, 0x5D]).read (request "locale").input = .ok [0x5B, 0x5D] := by
    decide +kernel
  have unprocessable : Service.statusOf? (answer "utf-8-sig" [0xEF, 0xBB]) = some 422 := by
    decide +kernel
  have unprocessableToo : Service.statusOf? (answer "locale" [0x5B, 0x5D]) = some 422 := by
    decide +kernel
  have covered : Encoding.Codec.ofName? "utf-8-sig" = some .utf8Marked := by decide +kernel
  have stopped : ¬ ReadsAnyway asciiLocale "utf-8-sig" [0xEF, 0xBB] := by
    rintro ⟨foreign, -⟩
    simp [covered] at foreign
  have goesOn : ¬ BreaksOff asciiLocale (request "utf-8-sig") "utf-8-sig" [0xEF, 0xBB] := by
    intro breaks
    cases breaks with
    | unread foreign _ _ => simp [covered] at foreign
    | missingMark lacks _ => simp [lacks.1.known] at covered
    | namelessClass nameless _ _ => cases nameless
  have reads : ReadsAnyway asciiLocale "locale" [0x5B, 0x5D] := by
    refine ⟨by decide +kernel, [.char '[', .char ']'], by decide +kernel, ?_⟩
    have read : Document.parse (Json.firstPicture [.char '[', .char ']']) = .ok ⟨[], [], true⟩ :=
      rfl
    intro refused
    cases refused with
    | reading unread => cases read.symm.trans unread
    | rendering parsed unrendered =>
        cases read.symm.trans parsed
        cases unrendered
  have writable : IsWritable (tree [0x5B, 0x5D]) (.ofText "b") := fun content => ⟨_, rfl⟩
  obtain ⟨unchanged, complains, -⟩ :=
    (run_complains_iff (asked "utf-8-sig" (by decide)) rfl present unprocessable).1 stopped
  obtain ⟨finished, holdsError⟩ := complains.mpr goesOn
  exact ⟨asked "utf-8-sig" (by decide), rfl, present, unprocessable, unchanged, finished,
    holdsError, unprocessableToo, reads, writable,
    (run_complains_iff (asked "locale" (by decide)) rfl presentToo unprocessableToo).2 reads
      writable⟩

/-- With an encoding that is not known, and on part of a document in UTF-16 without a
mark, the service says that it cannot process the upload, and the command breaks off. -/
theorem run_breaks_refused :
    Service.statusOf? (Service.convertFile [0x5B, 0x5D] none false "nope") = some 422 ∧
      (run Tree.access ["a", "-e", "nope"] ⟨[], .file "a" [0x5B, 0x5D] .empty⟩).1.ending =
        .broken (.source (.unknownEncoding "nope")) ∧
      Service.statusOf? (Service.convertFile [0x7B, 0] none false "utf-16") = some 422 ∧
      (run Tree.access ["a", "-e", "utf-16"] ⟨[], .file "a" [0x7B, 0] .empty⟩).1.ending =
        .broken (.source .missingMark) :=
  ⟨by decide +kernel, eq_of_brokenSource? (by decide +kernel), by decide +kernel,
    eq_of_brokenSource? (by decide +kernel)⟩

end Command

end Folio
