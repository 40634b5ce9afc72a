import Folio.Document.Basic
import Folio.Document.Error
import Folio.Json.Reader
import Folio.Text.Caseless

/-!
# Reading a document

A document is given in JSON as an array of lines, or as an object that holds
the lines, the metadata and the features.  An entry with a type is a directive
and one without is a text run.  Names are compared in lower case, flags are
whatever counts as true, and an alignment that counts as false is none.
-/

namespace Folio.Document

open Json

/-- The member of an object with a name, or a value to take when it is
absent. -/
def memberOr (members : List (String × Value)) (name : String) (absent : Value) : Value :=
  (members.lookup name).getD absent

/-- Whether a member counts as true; an absent one does not. -/
def flagOf (members : List (String × Value)) (name : String) : Bool :=
  (memberOr members name (.flag false)).isTrue

def textOf (members : List (String × Value)) (name : String) : String :=
  (memberOr members name (.text "")).asText

def readName {Meaning : Type} (ofName? : String → Option Meaning) (vocabulary : Vocabulary)
    (given : Value) : Except ParsingCause Meaning :=
  match ofName? (Text.lower given.asText) with
  | some meaning => .ok meaning
  | none => .error (.unknownName vocabulary given)

/-- The content of a directive: a text, a whole number, a flag or nothing. -/
def readContent : Value → Except ParsingCause Content
  | .null => .ok .absent
  | .text value => .ok (.text value)
  | .integer value => .ok (.number value)
  | .flag value => .ok (.flag value)
  | .float _ | .array _ | .object _ => .error .badContent

/-- The target of a directive; only one that redirects has any. -/
def readTarget (kind : DirectiveKind) (members : List (String × Value)) :
    Except ParsingCause Target :=
  if kind = .destination then
    match members.lookup "destination" with
    | none => .error .missingDestination
    | some given => (readName Destination.ofName? .destinations given).map .known
  else .ok .missing

def readAlignment (given : Value) : Except ParsingCause Alignment :=
  if given.isTrue then readName Alignment.ofName? .alignments given else .ok .unset

def readDirective (given : Value) (members : List (String × Value)) :
    Except ParsingCause Directive := do
  let kind ← readName DirectiveKind.ofName? .lineTypes given
  let content ← readContent (memberOr members "content" .null)
  let target ← readTarget kind members
  let alignment ← readAlignment (memberOr members "align" .null)
  return {
    kind := kind
    content := content
    alignment := alignment
    breakBefore := flagOf members "break"
    target := target
    header := flagOf members "header"
    mediaType := textOf members "mediaType"
    data := textOf members "data"
    reset := flagOf members "reset" }

def readRun (members : List (String × Value)) : Except ParsingCause TextRun :=
  match memberOr members "text" (.text "") with
  | .text value =>
      .ok {
        text := value
        style := {
          italic := flagOf members "italic"
          bold := flagOf members "bold"
          underline := flagOf members "underline"
          strikeout := flagOf members "strikeout"
          mono := flagOf members "mono"
          supertext := flagOf members "supertext"
          subtext := flagOf members "subtext" }
        reset := flagOf members "reset" }
  | _ => .error .textNotString

def readLine : Value → Except ParsingCause Line
  | .object members =>
      match members.lookup "type" with
      | some given => (readDirective given members).map .directive
      | none => (readRun members).map .run
  | _ => .error .lineNotObject

/-- Lines, the first of which has the given number.  The first line that cannot
be read is the one that is reported. -/
def readLines (number : Nat) : List Value → Except ParsingError (List Line)
  | [] => .ok []
  | entry :: rest => do
      let line ← (readLine entry).mapError fun cause => ⟨cause, some number⟩
      let following ← readLines (number + 1) rest
      return line :: following

def textsOf? : List Value → Option (List String)
  | [] => some []
  | .text value :: rest => (textsOf? rest).map (value :: ·)
  | _ :: _ => none

/-- The values of a metadata term: one text, or an array of texts. -/
def termValues? : Value → Option (List String)
  | .text value => some [value]
  | .array items => textsOf? items
  | _ => none

def readTerms : List (String × Value) → Except ParsingCause (List (String × List String))
  | [] => .ok []
  | (name, given) :: rest =>
      match termValues? given with
      | none => .error (.badTerm name)
      | some values => (readTerms rest).map ((name, values) :: ·)

def readMetadata : Value → Except ParsingCause (List (String × List String))
  | .object members => readTerms members
  | _ => .error .metadataNotObject

def readFeatures : Value → Except ParsingCause Bool
  | .object members => .ok (memberOr members "dcmeta" (.flag true)).isTrue
  | _ => .error .featuresNotObject

/-- The members of a value that describes a document. -/
def sourceMembers : Value → Except ParsingCause (List (String × Value))
  | .array items => .ok [("lines", .array items)]
  | .object members => .ok members
  | _ => .error .notADocument

def sourceLines (members : List (String × Value)) : Except ParsingCause (List Value) :=
  match memberOr members "lines" (.array []) with
  | .array items => .ok items
  | _ => .error .linesNotArray

def unlocated {Result : Type} (outcome : Except ParsingCause Result) :
    Except ParsingError Result :=
  outcome.mapError fun cause => ⟨cause, none⟩

def ofValue (source : Value) : Except ParsingError Document := do
  let members ← unlocated (sourceMembers source)
  let entries ← unlocated (sourceLines members)
  let lines ← readLines 0 entries
  let metadata ← unlocated (readMetadata (memberOr members "metadata" (.object [])))
  let showsMetadata ← unlocated (readFeatures (memberOr members "features" (.object [])))
  return ⟨lines, metadata, showsMetadata⟩

def parse (text : String) : Except (Failure ParsingError) Document := do
  let source ← (Json.parse text).mapError (·.map fun error => ⟨.notJson error, none⟩)
  (ofValue source).mapError .refused

end Folio.Document
