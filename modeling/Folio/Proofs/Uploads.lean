import Folio.Command.Run
import Folio.Proofs.Pictures
import Folio.Proofs.Saving
import Folio.Service.Endpoint

/-!
# A run of the command and an upload

The command and the service convert the same bytes to the same page, although the
command unifies line ends first and decodes what it reads as a file.  They part on
UTF-16 without a mark of its byte order: the service takes the order for granted,
and the command breaks off.
-/

namespace Folio

open Text

/-! ### Bytes of a file and bytes at hand -/

namespace Encoding

/-- The name of an encoding that is described here. -/
structure IsNameOf (name : String) (codec : Codec) : Prop where
  noNull : holdsNull name = false
  known : Codec.ofName? name = some codec

theorem IsNameOf.unique {name : String} {codec other : Codec} (named : IsNameOf name codec)
    (also : IsNameOf name other) : codec = other :=
  Option.some.inj (named.known.symm.trans also.known)

/-- Bytes that lack the mark which their encoding expects in a file. -/
def LacksMark (name : String) (bytes : List UInt8) : Prop :=
  IsNameOf name .utf16 ∧ bytes ≠ [] ∧ Utf16.marked? bytes = none

variable {name : String} {bytes : List UInt8} {codec : Codec} {codecs : Codecs}

theorem decode_nil (codec : Codec) : codec.decode [] = .ok "" := by
  cases codec with
  | utf16Ordered order => cases order <;> rfl
  | utf8 | utf8Marked | ascii | latin1 | windows1252 | utf16 => rfl

theorem decode_of_isNameOf (named : IsNameOf name codec) (codecs : Codecs)
    (bytes : List UInt8) :
    decode codecs name bytes = (codec.decode bytes).map Symbol.ofText := by
  rw [decode, if_neg (by simp [named.noNull]), named.known]
  cases bytes with
  | nil =>
      rw [decode_nil]
      rfl
  | cons byte rest => rfl

theorem decodeFile_of_isNameOf (named : IsNameOf name codec) (codecs : Codecs)
    (bytes : List UInt8) :
    decodeFile codecs name bytes = (codec.decodeFile bytes).map Symbol.ofText := by
  rw [decodeFile, if_neg (by simp [named.noNull]), named.known]

/-- Part of a mark decodes to nothing at best. -/
theorem decode_partOfMark {text : String} (short : bytes.length < Utf8.mark.length)
    (part : bytes <+: Utf8.mark) (decoded : Codec.utf8Marked.decode bytes = .ok text) :
    text = "" := by
  rw [List.prefix_iff_eq_take.mp part] at decoded
  generalize bytes.length = taken at short decoded
  match taken, short with
  | 0, _ =>
      cases decoded
      rfl
  | 1, _ | 2, _ => cases decoded

/-- A name belongs to an encoding that is described here, or is left to the machine, or
cannot be asked for. -/
theorem isNameOf_cases (name : String) :
    (∃ codec, IsNameOf name codec) ∨ (holdsNull name = false ∧ Codec.ofName? name = none) ∨
      holdsNull name = true := by
  cases null : holdsNull name with
  | true => exact .inr (.inr rfl)
  | false =>
      cases known : Codec.ofName? name with
      | none => exact .inr (.inl ⟨rfl, rfl⟩)
      | some codec => exact .inl ⟨codec, null, known⟩

/-- A machine without other encodings decodes nothing else, except no bytes. -/
theorem decode_bare (unnamed : ¬ ∃ codec, IsNameOf name codec) {source : List Symbol}
    (decoded : decode .bare name bytes = .ok source) : source = [] := by
  rcases isNameOf_cases name with named | ⟨noNull, unknown⟩ | null
  · exact absurd named unnamed
  · rw [decode, if_neg (by simp [noNull]), unknown] at decoded
    split at decoded
    · cases decoded
      rfl
    · cases decoded
  · rw [decode, if_pos null] at decoded
    cases decoded

theorem decodeFile_bare (unnamed : ¬ ∃ codec, IsNameOf name codec) (source : List Symbol) :
    decodeFile .bare name bytes ≠ .ok source := by
  rcases isNameOf_cases name with named | ⟨noNull, unknown⟩ | null
  · exact absurd named unnamed
  · rw [decodeFile, if_neg (by simp [noNull]), unknown]
    rintro ⟨⟩
  · rw [decodeFile, if_pos null]
    rintro ⟨⟩

section Worth

variable (Good : String → Prop)

theorem exists_decodeFile_utf8Marked_iff (worthless : ¬ Good "") (bytes : List UInt8) :
    (∃ text, Codec.utf8Marked.decodeFile bytes = .ok text ∧ Good text) ↔
      ∃ text, Codec.utf8Marked.decode bytes = .ok text ∧ Good text := by
  rw [Codec.decodeFile]
  split
  · rename_i partOfMark
    obtain ⟨short, part⟩ : bytes.length < Utf8.mark.length ∧ bytes <+: Utf8.mark := by
      simpa using partOfMark
    constructor
    · rintro ⟨text, decoded, good⟩
      cases decoded
      exact absurd good worthless
    · rintro ⟨text, decoded, good⟩
      rw [decode_partOfMark short part decoded] at good
      exact absurd good worthless
  · rfl

theorem exists_decodeFile_utf16_iff (bytes : List UInt8) :
    (∃ text, Codec.utf16.decodeFile bytes = .ok text ∧ Good text) ↔
      (∃ text, Codec.utf16.decode bytes = .ok text ∧ Good text) ∧
        ¬ (bytes ≠ [] ∧ Utf16.marked? bytes = none) := by
  rw [Codec.decodeFile]
  cases Codec.utf16.decode bytes with
  | error fault => simp [bind, Except.bind]
  | ok text =>
      by_cases empty : bytes = []
      · simp [bind, Except.bind, pure, Except.pure, empty]
      · cases marked : Utf16.marked? bytes with
        | none => simp [bind, Except.bind, empty, throw, throwThe, MonadExceptOf.throw]
        | some _ => simp [bind, Except.bind, pure, Except.pure]

end Worth

section Sources

variable (Good : List Symbol → Prop)

theorem exists_map_ofText_iff (decoded : Except TextFault String) :
    (∃ source, decoded.map Symbol.ofText = .ok source ∧ Good source) ↔
      ∃ text, decoded = .ok text ∧ Good (Symbol.ofText text) := by
  cases decoded <;> simp [Except.map]

/-- Decoding a file and decoding bytes at hand give the same texts that are worth
anything, unless a mark is lacking. -/
theorem exists_decodeFile_iff (worthless : ¬ Good []) (name : String) (bytes : List UInt8) :
    (∃ source, decodeFile .bare name bytes = .ok source ∧ Good source) ↔
      (∃ source, decode .bare name bytes = .ok source ∧ Good source) ∧
        ¬ LacksMark name bytes := by
  by_cases named : ∃ codec, IsNameOf name codec
  · obtain ⟨codec, named⟩ := named
    have lacks : LacksMark name bytes ↔
        codec = .utf16 ∧ bytes ≠ [] ∧ Utf16.marked? bytes = none :=
      and_congr_left' ⟨fun other => named.unique other, fun same => same ▸ named⟩
    rw [decode_of_isNameOf named, decodeFile_of_isNameOf named, lacks,
      exists_map_ofText_iff, exists_map_ofText_iff]
    cases codec with
    | utf8Marked =>
        simpa using exists_decodeFile_utf8Marked_iff (fun text => Good (Symbol.ofText text))
          worthless bytes
    | utf16 =>
        simpa using exists_decodeFile_utf16_iff (fun text => Good (Symbol.ofText text)) bytes
    | utf8 | ascii | latin1 | windows1252 | utf16Ordered => simp [Codec.decodeFile]
  · constructor
    · rintro ⟨source, decoded, -⟩
      exact absurd decoded (decodeFile_bare named source)
    · rintro ⟨⟨source, decoded, good⟩, -⟩
      rw [decode_bare named decoded] at good
      exact absurd good worthless

end Sources

/-- A file that lacks its mark, and would be decoded if it were at hand, is refused. -/
theorem decodeFile_of_lacksMark (lacks : LacksMark name bytes) {source : List Symbol}
    (decoded : decode codecs name bytes = .ok source) :
    decodeFile codecs name bytes = .error .missingMark := by
  obtain ⟨named, nonempty, unmarked⟩ := lacks
  rw [decode_of_isNameOf named] at decoded
  rw [decodeFile_of_isNameOf named, Codec.decodeFile]
  cases inside : Codec.utf16.decode bytes with
  | error fault => simp [inside, Except.map] at decoded
  | ok text =>
      simp [bind, Except.bind, unmarked, nonempty, throw, throwThe, MonadExceptOf.throw, Except.map]

end Encoding

theorem Encoding.Utf8.encode_injective : Function.Injective Encoding.Utf8.encode := by
  intro first second same
  have strings : String.ofList first = String.ofList second := by
    rw [← String.toByteArray_inj, String.toByteArray_ofList, String.toByteArray_ofList]
    exact congrArg List.toByteArray same
  simpa using congrArg String.toList strings

theorem publish_empty (options : Options) (page : Except Encoding.EncodeFault String) :
    publish options [] ≠ .ok page := by
  obtain ⟨error, parsed⟩ : ∃ error, Document.parse "" = .error error := ⟨_, rfl⟩
  have picture : Json.firstPicture [] = "" := rfl
  simp [publish, picture, convert, parsed, bind, Except.bind, Except.map]

/-! ### Runs -/

namespace Command

open Files

/-- The request for a page with the options of the service. -/
def Request.likeService (input output : Path) (bodyOnly : Bool) (encoding : String)
    (verbose : Bool) : Request :=
  ⟨input, output, Service.optionsFor bodyOnly, none, some encoding, verbose⟩

/-- The words that name an input, an output and an encoding, and ask for the body alone
if wanted. -/
def commandLine (input output encoding : String) (bodyOnly : Bool) : List String :=
  [input, "-o", output, "-e", encoding] ++ if bodyOnly then ["--body-only"] else []

theorem seeAll_cons {word : String} {rest : List String} {seen : Word} {following : List Word}
    (notSeparator : word ≠ "--") (sees : see word = .ok seen)
    (seesRest : seeAll rest = .ok following) : seeAll (word :: rest) = .ok (seen :: following) := by
  rw [seeAll, if_neg notSeparator, sees, seesRest]
  rfl

theorem seeAll_operand {word : String} {rest : List String} {following : List Word}
    (noDash : word.toList.head? ≠ some '-') (seesRest : seeAll rest = .ok following) :
    seeAll (word :: rest) = .ok (.operand word :: following) := by
  refine seeAll_cons ?_ ?_ seesRest
  · rintro rfl
    exact noDash rfl
  · unfold see
    split
    · rename_i begins
      simp [begins] at noDash
    · rename_i begins
      simp [begins] at noDash
    · rfl

/-- Ordinary words ask for what they name. -/
theorem ofWords_commandLine {input output encoding : String} (bodyOnly : Bool)
    (inputGiven : input ≠ "") (outputGiven : output ≠ "")
    (noDash : ∀ word ∈ [input, output, encoding], word.toList.head? ≠ some '-') :
    Request.ofWords (commandLine input output encoding bodyOnly) =
      .ok (.likeService (.ofText input) (.ofText output) bodyOnly encoding false) := by
  have seenBody : seeAll (if bodyOnly then ["--body-only"] else []) =
      .ok (if bodyOnly then [.option ⟨.long, .flag .bodyOnly, none⟩] else []) := by
    cases bodyOnly <;> decide
  have seesEncoding : see "-e" = .ok (.option ⟨.short, .setting .encoding, none⟩) := by decide
  have seesOutput : see "-o" = .ok (.option ⟨.short, .setting .output, none⟩) := by decide
  have seenEncoding := seeAll_cons (by decide) seesEncoding
    (seeAll_operand (noDash encoding (by simp)) seenBody)
  have seen := seeAll_operand (noDash input (by simp)) <|
    seeAll_cons (by decide) seesOutput (seeAll_operand (noDash output (by simp)) seenEncoding)
  have taken : Reading.initial.take ([.operand input, .option ⟨.short, .setting .output, none⟩,
      .operand output, .option ⟨.short, .setting .encoding, none⟩, .operand encoding] ++
        if bodyOnly then [.option ⟨.long, .flag .bodyOnly, none⟩] else []) =
      .ok ⟨⟨some input, some output, bodyOnly, false, [], [], false, some encoding, false⟩,
        []⟩ := by
    delta Reading.take
    cases bodyOnly <;> rfl
  have read : Arguments.ofWords (commandLine input output encoding bodyOnly) =
      .ok ⟨some input, some output, bodyOnly, false, [], [], false, some encoding, false⟩ := by
    simp only [List.cons_append, List.nil_append] at taken
    simp [Arguments.ofWords, commandLine, seen, taken, bind, Except.bind, pure, Except.pure]
  rw [Request.ofWords, read]
  simp [bind, Except.bind, pure, Except.pure, Arguments.outputFor, Arguments.options,
    Arguments.namelessClass?, Request.likeService, Service.optionsFor, Options.standard]

theorem isFile_of_read {tree : Tree} {path : Path} {bytes : List UInt8}
    (present : tree.read path = .ok bytes) : tree.isFile path = .ok true := by
  unfold Tree.read at present
  obtain ⟨location, leads, present⟩ := bind_eq_ok_iff.mp present
  split at present
  · cases present
  · cases present
  · rename_i content lies
    simp [Tree.isFile, leads, lies]

/-- The page of a document text, without what is reported. -/
theorem snd_pageOf {request : Request} (classed : request.namelessClass = none)
    (source : List Symbol) :
    (request.pageOf source).2 = (publish request.options source).mapError .document := by
  simp only [Request.pageOf, classed, publish, ← snd_convertReporting]
  cases (convertReporting request.options (Json.firstPicture source)).2 <;> rfl

/-- A class without a name keeps a document that can be read from being rendered. -/
theorem snd_pageOf_nameless {request : Request} {place : Nat}
    (nameless : request.namelessClass = some place) (source : List Symbol) :
    (request.pageOf source).2 =
      match Document.parse (Json.firstPicture source) with
      | .error failure => .error (.document (failure.map .parsing))
      | .ok _ => .error (.namelessClass place) := by
  simp only [Request.pageOf, nameless, readReporting]
  cases Document.parse (Json.firstPicture source) <;> rfl

/-- The page for the bytes of a file, without what is reported. -/
theorem snd_page {request : Request} {encoding : String}
    (named : request.encoding = some encoding) (codecs : Encoding.Codecs) (bytes : List UInt8) :
    (request.page codecs bytes).2 =
      match Encoding.decodeFile codecs encoding bytes with
      | .error fault => .error (.source fault)
      | .ok source => (request.pageOf (Symbol.unifyNewlines source)).2 := by
  simp only [Request.page, Request.sourceText, named]
  cases Encoding.decodeFile codecs encoding bytes <;> rfl

theorem snd_page_likeService_eq_ok_iff (codecs : Encoding.Codecs) (input output : Path)
    (bodyOnly : Bool) (encoding : String) (verbose : Bool) (bytes : List UInt8)
    (page : Except Encoding.EncodeFault String) :
    ((Request.likeService input output bodyOnly encoding verbose).page codecs bytes).2 =
        .ok page ↔
      ∃ source, Encoding.decodeFile codecs encoding bytes = .ok source ∧
        publish (Service.optionsFor bodyOnly) source = .ok page := by
  rw [snd_page rfl]
  cases Encoding.decodeFile codecs encoding bytes with
  | error fault => simp
  | ok source =>
      simp only [snd_pageOf, Request.likeService, Except.ok.injEq, exists_eq_left',
        mapError_eq_ok_iff, publish_unifyNewlines_eq_ok_iff]

/-- The service answers with a page exactly when the decoded bytes are converted to it and
it can be encoded. -/
theorem exists_convertFileWith_iff (codecs : Encoding.Codecs) (bytes : List UInt8)
    (filename : Option String) (bodyOnly : Bool) (encoding html : String) :
    (∃ response, Service.convertFileWith codecs bytes filename bodyOnly encoding =
        .ok response ∧ response.html = html) ↔
      ∃ source, Encoding.decode codecs encoding bytes = .ok source ∧
        publish (Service.optionsFor bodyOnly) source = .ok (.ok html) := by
  unfold Service.convertFileWith Service.page
  cases Encoding.decode codecs encoding bytes with
  | error fault => simp [bind, Except.bind]
  | ok source =>
      simp only [mapError_ok, bind, Except.bind, pure, Except.pure, Except.ok.injEq,
        exists_eq_left']
      cases publish (Service.optionsFor bodyOnly) source with
      | error failure => simp
      | ok page => cases page <;> simp

/-- Whether a file can be saved under a path, whatever is in it. -/
def IsWritable (tree : Tree) (path : Path) : Prop :=
  ∀ content, ∃ saved, Tree.access.save path content tree = (.ok (), saved)

variable {words : List String} {request : Request} {tree : Tree} {bytes : List UInt8}
  {codecs : Encoding.Codecs}

theorem runWith_of_present (asked : Request.ofWords words = .ok request)
    (present : tree.read request.input = .ok bytes) :
    runWith codecs Tree.access words tree =
      (request.outcome (request.perform codecs Tree.access tree).1,
        (request.perform codecs Tree.access tree).2) := by
  have isFile : Tree.access.isFile request.input tree = (.ok true, tree) :=
    congrArg (·, tree) (isFile_of_read present)
  simp only [runWith, asked, Request.run, bind, StateT.bind, isFile]
  rfl

theorem perform_of_present (present : tree.read request.input = .ok bytes) :
    request.perform codecs Tree.access tree =
      match request.page codecs bytes with
      | (reports, .error trouble) => ((reports, .error trouble), tree)
      | (reports, .ok page) =>
          match Tree.access.save request.output (Request.contentOf page) tree with
          | (.error fault, saved) => ((reports, .error (.files fault)), saved)
          | (.ok (), saved) => (request.written reports page, saved) := by
  have reads : Tree.access.read request.input tree = (.ok bytes, tree) :=
    congrArg (·, tree) present
  simp only [Request.perform, bind, StateT.bind, reads]
  obtain ⟨reports, made⟩ := request.page codecs bytes
  cases made with
  | error trouble => rfl
  | ok page =>
      simp only [StateT.bind, bind]
      obtain ⟨outcome, saved⟩ :=
        Tree.access.save request.output (Request.contentOf page) tree
      cases outcome <;> rfl

theorem ending_of_error (request : Request) (reports : List Progress) (trouble : Trouble) :
    (request.outcome (reports, .error trouble)).ending =
      if trouble.isReported then .finished 1 else .broken trouble := by
  cases reported : trouble.isReported <;> simp [Request.outcome, reported]

/-- How a run ends that has a page and an open file for it. -/
def Ending.ofPage : Except Encoding.EncodeFault String → Ending
  | .ok _ => .finished 0
  | .error fault => .broken (.unencodable fault)

theorem ending_written (request : Request) (reports : List Progress)
    (page : Except Encoding.EncodeFault String) :
    (request.outcome (request.written reports page)).ending = .ofPage page := by
  cases page with
  | ok html => rfl
  | error fault => exact ending_of_error request reports (.unencodable fault)

theorem runWith_of_page_error (asked : Request.ofWords words = .ok request)
    (present : tree.read request.input = .ok bytes) {trouble : Trouble}
    (failed : (request.page codecs bytes).2 = .error trouble) :
    (runWith codecs Tree.access words tree).1.ending =
      if trouble.isReported then .finished 1 else .broken trouble := by
  rw [runWith_of_present asked present, perform_of_present present]
  generalize request.page codecs bytes = paging at failed
  obtain ⟨reports, made⟩ := paging
  cases failed
  exact ending_of_error request reports trouble

theorem runWith_of_page_ok (asked : Request.ofWords words = .ok request)
    (present : tree.read request.input = .ok bytes) (writable : IsWritable tree request.output)
    {page : Except Encoding.EncodeFault String}
    (made : (request.page codecs bytes).2 = .ok page) :
    (runWith codecs Tree.access words tree).1.ending = .ofPage page ∧
      (runWith codecs Tree.access words tree).2.read request.output =
        .ok (Request.contentOf page) := by
  obtain ⟨saved, stored⟩ := writable (Request.contentOf page)
  rw [runWith_of_present asked present, perform_of_present present]
  generalize request.page codecs bytes = paging at made
  obtain ⟨reports, outcome⟩ := paging
  cases made
  simp only [stored]
  exact ⟨ending_written request reports page, Tree.read_save stored⟩

/-- Where the output can be written, a run finishes with a page exactly when there is
one and it can be encoded. -/
theorem runWith_finishes_iff (codecs : Encoding.Codecs)
    (asked : Request.ofWords words = .ok request)
    (present : tree.read request.input = .ok bytes) (writable : IsWritable tree request.output)
    (html : String) :
    (runWith codecs Tree.access words tree).1.ending = .finished 0 ∧
        (runWith codecs Tree.access words tree).2.read request.output =
          .ok (Encoding.Utf8.encode html.toList) ↔
      (request.page codecs bytes).2 = .ok (.ok html) := by
  constructor
  · rintro ⟨finished, written⟩
    cases made : (request.page codecs bytes).2 with
    | error trouble =>
        rw [runWith_of_page_error asked present made] at finished
        split at finished <;> simp at finished
    | ok page =>
        obtain ⟨ends, stored⟩ := runWith_of_page_ok asked present writable made
        cases page with
        | error fault =>
            rw [ends] at finished
            cases finished
        | ok other =>
            rw [stored] at written
            have same := Encoding.Utf8.encode_injective (Except.ok.inj written)
            simpa using congrArg String.ofList same
  · intro made
    exact runWith_of_page_ok asked present writable made

/-- A run that asks for what the service gives finishes with a page exactly when the
service answers with that page and the file does not lack a mark.  If the file does,
the run breaks off where the service answers.  Unifying line ends, which only the run
does, never matters. -/
theorem run_finishes_iff_convertFile {input output : Path} {encoding : String}
    {bodyOnly verbose : Bool}
    (asked : Request.ofWords words = .ok (.likeService input output bodyOnly encoding verbose))
    (present : tree.read input = .ok bytes) (writable : IsWritable tree output)
    (filename : Option String) :
    (∀ html,
      (run Tree.access words tree).1.ending = .finished 0 ∧
          (run Tree.access words tree).2.read output = .ok (Encoding.Utf8.encode html.toList) ↔
        (∃ response, Service.convertFile bytes filename bodyOnly encoding = .ok response ∧
          response.html = html) ∧ ¬ Encoding.LacksMark encoding bytes) ∧
      (∀ response, Service.convertFile bytes filename bodyOnly encoding = .ok response →
        Encoding.LacksMark encoding bytes →
          (run Tree.access words tree).1.ending = .broken (.source .missingMark)) ∧
      ∀ options text,
        (convert options (String.ofList (Text.unifyNewlines text.toList))).mapError
            (·.map ConversionError.stage) =
          (convert options text).mapError (·.map ConversionError.stage) := by
  have finishes (html : String) :=
    runWith_finishes_iff .bare asked present writable html
  have decodes (html : String) := Encoding.exists_decodeFile_iff
    (publish (Service.optionsFor bodyOnly) · = .ok (.ok html)) (publish_empty _ _)
      encoding bytes
  refine ⟨?_, ?_, convert_unifyNewlines⟩
  · intro html
    rw [Service.convertFile, exists_convertFileWith_iff, ← decodes,
      ← snd_page_likeService_eq_ok_iff .bare input output]
    exact finishes html
  · intro response answered lacks
    obtain ⟨source, decoded, -⟩ :=
      (exists_convertFileWith_iff .bare bytes filename bodyOnly encoding response.html).mp
        ⟨response, answered, rfl⟩
    have unread :
        ((Request.likeService input output bodyOnly encoding verbose).page .bare bytes).2 =
          .error (.source .missingMark) := by
      rw [snd_page rfl, Encoding.decodeFile_of_lacksMark lacks decoded]
    exact runWith_of_page_error asked present unread

/-- A document over three lines, with the line ends of another system. -/
def letterBytes : List UInt8 :=
  Encoding.Utf8.encode "[\r\n\x7b\"text\": \"a\"\x7d\r\n]".toList

def letterPage : String := "<section>\n  <p>a</p>\n</section>"

/-- A working directory with a document. -/
def letterTree : Tree := ⟨[], .file "a" letterBytes .empty⟩

theorem run_finishes_letter :
    Request.ofWords (commandLine "a" "b" "utf-8" true) =
        .ok (.likeService (.ofText "a") (.ofText "b") true "utf-8" false) ∧
      letterTree.read (.ofText "a") = .ok letterBytes ∧ IsWritable letterTree (.ofText "b") ∧
      (run Tree.access (commandLine "a" "b" "utf-8" true) letterTree).1.ending = .finished 0 ∧
      (run Tree.access (commandLine "a" "b" "utf-8" true) letterTree).2.read (.ofText "b") =
        .ok (Encoding.Utf8.encode letterPage.toList) := by
  have asked : Request.ofWords (commandLine "a" "b" "utf-8" true) =
      .ok (.likeService (.ofText "a") (.ofText "b") true "utf-8" false) :=
    ofWords_commandLine true (by decide) (by decide) (by decide)
  have present : letterTree.read (.ofText "a") = .ok letterBytes := by decide +kernel
  have writable : IsWritable letterTree (.ofText "b") := fun content => ⟨_, rfl⟩
  have answered : ∃ response, Service.convertFile letterBytes none true "utf-8" = .ok response ∧
      response.html = letterPage := by
    have same : (Service.convertFile letterBytes none true "utf-8").toOption.map (·.html) =
        some letterPage := by decide +kernel
    obtain ⟨response, answer, page⟩ := Option.map_eq_some_iff.mp same
    exact ⟨response, toOption_eq_some_iff.mp answer, page⟩
  have unneeded : ¬ Encoding.LacksMark "utf-8" letterBytes := by
    rintro ⟨named, -⟩
    exact absurd named.known (by decide +kernel)
  exact ⟨asked, present, writable,
    ((run_finishes_iff_convertFile asked present writable none).1 letterPage).mpr
      ⟨answered, unneeded⟩⟩

/-- The fault of a source that a run broke off with. -/
def Ending.brokenSource? : Ending → Option Encoding.TextFault
  | .broken (.source fault) => some fault
  | _ => none

theorem eq_of_brokenSource? {ending : Ending} {fault : Encoding.TextFault}
    (broken : ending.brokenSource? = some fault) : ending = .broken (.source fault) := by
  unfold Ending.brokenSource? at broken
  split at broken
  · rw [Option.some.inj broken]
  · cases broken

/-- An empty array in UTF-16 without a mark: the service answers with a page, and the
run breaks off. -/
theorem run_breaks_unmarked :
    (∃ response, Service.convertFile [0x5B, 0, 0x5D, 0] none false "utf-16" = .ok response) ∧
      (run Tree.access ["a", "-o", "b", "-e", "utf-16"]
        ⟨[], .file "a" [0x5B, 0, 0x5D, 0] .empty⟩).1.ending = .broken (.source .missingMark) := by
  refine ⟨?_, eq_of_brokenSource? (by decide +kernel)⟩
  have answered : (Service.convertFile [0x5B, 0, 0x5D, 0] none false "utf-16").toOption.isSome =
      true := by decide +kernel
  obtain ⟨response, answer⟩ := Option.isSome_iff_exists.mp answered
  exact ⟨response, toOption_eq_some_iff.mp answer⟩

end Command

end Folio
