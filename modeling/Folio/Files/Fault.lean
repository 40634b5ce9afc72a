import Folio.Files.Path
import Folio.Text.Quoted

/-!
# Faults of file operations

A file operation that is refused names its reason, by number and in words, and
the path it was about.
-/

namespace Folio.Files

inductive Reason where
  | missing
  | alreadyExists
  | notDirectory
  | isDirectory
  | nameTooLong
  /-- A reason that only a real file system has. -/
  | other (number : Nat) (description : String)
  deriving DecidableEq, Repr

def Reason.number : Reason → Nat
  | missing => 2
  | alreadyExists => 17
  | notDirectory => 20
  | isDirectory => 21
  | nameTooLong => 36
  | other number _ => number

def Reason.description : Reason → String
  | missing => "No such file or directory"
  | alreadyExists => "File exists"
  | notDirectory => "Not a directory"
  | isDirectory => "Is a directory"
  | nameTooLong => "File name too long"
  | other _ description => description

inductive Fault where
  | refused (reason : Reason) (path : Path)
  /-- The path holds the null character, so it cannot even be asked for. -/
  | nullInPath
  /-- Too many directories on the way are missing. -/
  | tooDeep
  deriving DecidableEq, Repr

def Fault.message : Fault → String
  | refused reason path =>
      "[Errno " ++ toString reason.number ++ "] " ++ reason.description ++ ": " ++
        Text.quoted path.text
  | nullInPath => "embedded null byte"
  | tooDeep => "maximum recursion depth exceeded while calling a Python object"

end Folio.Files
