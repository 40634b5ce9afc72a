import Folio.Encoding.Codec
import Folio.Publish
import Folio.Service.Disposition

/-!
# The endpoints of the service

The service converts a document that is sent as text or uploaded as a file.  A
document that is refused, and a file that cannot be decoded, are answered as
unprocessable with the reason.  A page that cannot be encoded is not answered at all.
-/

namespace Folio.Service

def version : String := "1.0.0"

def health : List (String × String) := [("status", "ok"), ("version", version)]

def contentType : String := "text/html; charset=utf-8"

def okStatus : Nat := 200

/-- The status of a request whose document cannot be converted. -/
def unprocessableStatus : Nat := 422

structure Response where
  html : String
  /-- The header that offers the page for download. -/
  disposition : Option String
  deriving DecidableEq, Repr

inductive Rejection where
  /-- The bytes of an upload yield no text. -/
  | encoding (fault : Encoding.TextFault)
  | conversion (failure : Failure ConversionError)
  | unencodable (fault : Encoding.EncodeFault)

/-- The status a rejection is answered with.  Of the faults of an encoding only an unknown
name and bytes that it does not allow are answered; a number that cannot be converted is
not, nor is a page that cannot be encoded. -/
def Rejection.status? : Rejection → Option Nat
  | encoding (.unknownEncoding _) | encoding (.undecodable _) => some unprocessableStatus
  | encoding (.foreign .lookup _) | encoding (.foreign .decoding _) => some unprocessableStatus
  | encoding .nullInName | encoding .missingMark | encoding (.foreign .other _) => none
  | conversion (.numeral _) => none
  | conversion (.refused _) => some unprocessableStatus
  | unencodable _ => none

def Rejection.message : Rejection → String
  | encoding fault => fault.message
  | conversion failure => failure.message ConversionError.message
  | unencodable fault => fault.message

def optionsFor (bodyOnly : Bool) : Options := { Options.standard with bodyOnly := bodyOnly }

/-- Convert a text with the options of the service. -/
def page (bodyOnly : Bool) (source : List Text.Symbol) : Except Rejection String := do
  let made ← (publish (optionsFor bodyOnly) source).mapError .conversion
  made.mapError .unencodable

def convertText (document : String) (bodyOnly : Bool) : Except Rejection Response := do
  return ⟨← page bodyOnly (Text.Symbol.ofText document), none⟩

/-- A file name up to its last point; all of it when there is none. -/
def stem (filename : List Char) : List Char :=
  match filename.reverse.dropWhile (· != '.') with
  | [] => filename
  | _ :: before => before.reverse

/-- The name under which the page of an uploaded file is offered. -/
def downloadName (filename : Option String) : String :=
  let uploaded :=
    match filename with
    | none | some "" => "document.json"
    | some name => name
  String.ofList (stem uploaded.toList) ++ ".html"

/-- Convert an upload on a machine with the given codecs. -/
def convertFileWith (codecs : Encoding.Codecs) (bytes : List UInt8) (filename : Option String)
    (bodyOnly : Bool) (encoding : String) : Except Rejection Response := do
  let source ← (Encoding.decode codecs encoding bytes).mapError .encoding
  let html ← page bodyOnly source
  return ⟨html, some (disposition (downloadName filename))⟩

def convertFile (bytes : List UInt8) (filename : Option String) (bodyOnly : Bool)
    (encoding : String) : Except Rejection Response :=
  convertFileWith .bare bytes filename bodyOnly encoding

end Folio.Service
