import Folio.Command.Usage
import Folio.Encoding.Codec
import Folio.Files.Access
import Folio.Progress
import Folio.Publish

/-!
# A run of the command

A run reads one file and writes one.  Nothing is written before the page is
there, so a run that fails before leaves all files as they were.  The page is encoded
when its file is open already: one that cannot be encoded leaves the file empty,
whatever was in it.

Troubles with the file, its encoding or the document are reported.  What breaks a
run off is a number that cannot be converted, a page that cannot be encoded, an
encoding that is not known or without a name, a file that lacks the mark of its
encoding, a class without a name, and a path that cannot even be asked for or that
leads through too many missing directories.
-/

namespace Folio.Command

open Files

inductive Trouble where
  | files (fault : Files.Fault)
  | source (fault : Encoding.TextFault)
  | document (failure : Failure ConversionError)
  /-- The page holds half of a surrogate pair. -/
  | unencodable (fault : Encoding.EncodeFault)
  | namelessEncoding
  /-- A class of the body, at a place in the list, is left without a name. -/
  | namelessClass (place : Nat)

namespace Trouble

def message : Trouble → String
  | files fault => fault.message
  | source fault => fault.message
  | document failure => failure.message ConversionError.message
  | unencodable fault => fault.message
  | namelessEncoding => "open() argument 'encoding' must be str or None, not list"
  | namelessClass place =>
      "sequence item " ++ toString place ++ ": expected str instance, list found"

/-- Whether a trouble is reported; another one breaks the run off. -/
def isReported : Trouble → Bool
  | files (.refused _ _) => true
  | source (.undecodable _) | source (.foreign .decoding _) => true
  | document (.refused _) => true
  | files .nullInPath | files .tooDeep => false
  | source (.unknownEncoding _) | source .nullInName | source .missingMark => false
  | source (.foreign .lookup _) | source (.foreign .other _) => false
  | document (.numeral _) | unencodable _ => false
  | namelessEncoding | namelessClass _ => false

end Trouble

inductive Ending where
  | finished (code : Nat)
  | stopped (code : Nat)
  | broken (trouble : Trouble)

structure Outcome where
  ending : Ending
  stdout : String
  /-- What is printed about problems and progress. -/
  stderr : String

def complain (message : String) : Outcome :=
  ⟨.finished 1, "", "Error: " ++ message ++ "\n"⟩

/-- The answer to a command line that asks for no work. -/
def Stop.outcome : Stop → Outcome
  | .help => ⟨.stopped 0, helpText, ""⟩
  | .version => ⟨.stopped 0, versionText, ""⟩
  | .misuse cause => ⟨.stopped 2, "", cause.report⟩

namespace Request

/-- A page, or why there is none, together with what is reported on the way to it.  A page
that is there may still be one that cannot be encoded. -/
abbrev Paging := List Progress × Except Trouble (Except Encoding.EncodeFault String)

/-- The document text in a file with the given bytes. -/
def sourceText (request : Request) (codecs : Encoding.Codecs) (bytes : List UInt8) :
    Except Trouble (List Text.Symbol) :=
  match request.encoding with
  | none => .error .namelessEncoding
  | some encoding =>
      match Encoding.decodeFile codecs encoding bytes with
      | .error fault => .error (.source fault)
      | .ok source => .ok (Text.Symbol.unifyNewlines source)

/-- The page of a document text.  A class without a name keeps a document that can be read
from being rendered. -/
def pageOf (request : Request) (source : List Text.Symbol) : Paging :=
  match request.namelessClass with
  | none =>
      let (reports, converted) := convertReporting request.options (Json.firstPicture source)
      (reports, (converted.mapError .document).map (reveal request.options source))
  | some place =>
      let (reports, document) := readReporting (Json.firstPicture source)
      (reports, document.mapError .document >>= fun _ => .error (.namelessClass place))

/-- The page for a file with the given bytes. -/
def page (request : Request) (codecs : Encoding.Codecs) (bytes : List UInt8) : Paging :=
  match request.sourceText codecs bytes with
  | .error trouble => ([], .error trouble)
  | .ok source => request.pageOf source

/-- What a page is written as: nothing of one that cannot be encoded. -/
def contentOf (page : Except Encoding.EncodeFault String) : List UInt8 :=
  match page with
  | .ok html => Encoding.Utf8.encode html.toList
  | .error _ => []

variable {m : Type → Type} [Monad m]

/-- The result of writing a page: the size of what was written. -/
def written (request : Request) (reports : List Progress) :
    Except Encoding.EncodeFault String → List Progress × Except Trouble Nat
  | .error fault => (reports, .error (.unencodable fault))
  | .ok html =>
      (reports ++ [.wrote request.output.text html.length], .ok (contentOf (.ok html)).length)

/-- Read the input and write the output. -/
def perform (request : Request) (codecs : Encoding.Codecs) (files : Access m) :
    m (List Progress × Except Trouble Nat) := do
  match ← files.read request.input with
  | .error fault => return ([], .error (.files fault))
  | .ok bytes =>
      match request.page codecs bytes with
      | (reports, .error trouble) => return (reports, .error trouble)
      | (reports, .ok page) =>
          match ← files.save request.output (contentOf page) with
          | .error fault => return (reports, .error (.files fault))
          | .ok () => return request.written reports page

def log (request : Request) : Log.Settings :=
  .ofLevel (if request.verbose then Log.debug else Log.warning)

def logged (request : Request) (reports : List Progress) : String :=
  request.log.writeAll (reports.map Progress.record)

def announcement (request : Request) : String :=
  if request.verbose then
    "Input:  " ++ request.input.text ++ "\nOutput: " ++ request.output.text ++ "\n"
  else ""

def conclusion (request : Request) (size : Nat) : String :=
  if request.verbose then "Done. " ++ toString size ++ " bytes written.\n"
  else "Converted: " ++ request.output.text ++ "\n"

def outcome (request : Request) : List Progress × Except Trouble Nat → Outcome
  | (reports, .ok size) =>
      ⟨.finished 0, request.announcement ++ request.conclusion size, request.logged reports⟩
  | (reports, .error trouble) =>
      if trouble.isReported then
        ⟨.finished 1, request.announcement,
          request.logged (reports ++ [.failed]) ++ "Error: " ++ trouble.message ++ "\n"⟩
      else ⟨.broken trouble, request.announcement, request.logged reports⟩

def run (request : Request) (codecs : Encoding.Codecs) (files : Access m) : m Outcome := do
  match ← files.isFile request.input with
  | .error fault => return ⟨.broken (.files fault), "", ""⟩
  | .ok false => return complain ("file not found: " ++ request.input.text)
  | .ok true => return request.outcome (← request.perform codecs files)

end Request

variable {m : Type → Type} [Monad m]

/-- A run on a machine with the given codecs. -/
def runWith (codecs : Encoding.Codecs) (files : Access m) (words : List String) : m Outcome :=
  match Request.ofWords words with
  | .error stop => return stop.outcome
  | .ok request => request.run codecs files

def run (files : Access m) (words : List String) : m Outcome :=
  runWith .bare files words

end Folio.Command
