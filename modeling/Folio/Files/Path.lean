/-!
# Paths

A path is a list of names that leads on from where it starts: from the working
directory, or from the root directory if it begins with a slash.  Exactly two
slashes in front are kept apart from one; three or more are one.  Empty names
and single points lead nowhere and are dropped, while a double point stays,
since where it leads depends on the files.
-/

namespace Folio.Files

inductive Start where
  | workingDirectory
  | rootDirectory
  /-- The root directory, written with two slashes. -/
  | doubledRoot
  deriving DecidableEq, Repr

def Start.text : Start → String
  | workingDirectory => ""
  | rootDirectory => "/"
  | doubledRoot => "//"

structure Path where
  start : Start
  names : List String
  deriving DecidableEq, Repr

namespace Path

def pieces : List Char → List (List Char)
  | [] => [[]]
  | c :: rest =>
      if c = '/' then [] :: pieces rest
      else
        match pieces rest with
        | [] => [[c]]
        | piece :: following => (c :: piece) :: following

def startOf : List Char → Start
  | '/' :: '/' :: '/' :: _ => .rootDirectory
  | '/' :: '/' :: _ => .doubledRoot
  | '/' :: _ => .rootDirectory
  | _ => .workingDirectory

def isName (piece : String) : Bool := piece != "" && piece != "."

def ofText (text : String) : Path :=
  ⟨startOf text.toList, ((pieces text.toList).map String.ofList).filter isName⟩

def text (path : Path) : String :=
  if path.start = .workingDirectory ∧ path.names = [] then "."
  else path.start.text ++ "/".intercalate path.names

/-- The path without its last name; one without names is its own parent. -/
def parent (path : Path) : Path := { path with names := path.names.dropLast }

def name (path : Path) : String := path.names.getLast?.getD ""

/-- A name without its suffix.  The suffix begins at the last point, unless
that is the first or the last character of the name. -/
def stem (name : String) : String :=
  let behind := (name.toList.reverse.takeWhile (· != '.')).length
  let length := name.toList.length
  if 0 < behind ∧ behind + 1 < length then String.ofList (name.toList.take (length - behind - 1))
  else name

/-- The path whose last name has a suffix in place of its own. -/
def withSuffix (suffix : String) (path : Path) : Path :=
  { path with names := path.names.dropLast ++ [stem path.name ++ suffix] }

/-- Whether a path holds the null character, which no name can. -/
def holdsNull (path : Path) : Bool := path.names.any (·.toList.contains '\x00')

end Path

end Folio.Files
