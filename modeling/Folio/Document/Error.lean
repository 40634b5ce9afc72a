import Folio.Json.Error
import Folio.Json.Value

/-!
# Why a text is no document

A text can fail to be JSON, and JSON can fail to describe a document.  A cause
that lies in one line is reported with the number of that line, counted from
zero.
-/

namespace Folio

inductive Vocabulary where
  | lineTypes
  | destinations
  | alignments
  deriving DecidableEq, Repr

def Vocabulary.noun : Vocabulary → String
  | lineTypes => "line type"
  | destinations => "destination"
  | alignments => "alignment"

inductive ParsingCause where
  | notJson (error : Json.SyntaxError)
  | notADocument
  | linesNotArray
  | lineNotObject
  | badContent
  | missingDestination
  | unknownName (vocabulary : Vocabulary) (given : Json.Value)
  | textNotString
  | metadataNotObject
  | badTerm (name : String)
  | featuresNotObject

def ParsingCause.message : ParsingCause → String
  | notJson error => "Invalid JSON: " ++ error.message
  | notADocument => "Expected a JSON object or array at top level"
  | linesNotArray => "'lines' must be an array"
  | lineNotObject => "line entries must be objects"
  | badContent => "'content' must be a string or integer"
  | missingDestination => "destination line without 'destination'"
  | unknownName vocabulary given => "unknown " ++ vocabulary.noun ++ " " ++ given.shown
  | textNotString => "'text' must be a string"
  | metadataNotObject => "'metadata' must be an object"
  | badTerm name =>
      "metadata term " ++ Text.quoted name ++ " must be a string or list of strings"
  | featuresNotObject => "'features' must be an object"

/-- A message with the number of the line it is about, if there is one. -/
def locatedMessage (line : Option Int) (message : String) : String :=
  match line with
  | none => message
  | some number => "line " ++ toString number ++ ": " ++ message

/-- A cause and the line it lies in, if it lies in one. -/
structure ParsingError where
  cause : ParsingCause
  line : Option Nat

def ParsingError.message (error : ParsingError) : String :=
  locatedMessage (error.line.map Int.ofNat) error.cause.message

end Folio
