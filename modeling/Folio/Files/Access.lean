import Folio.Files.Fault

/-!
# Access to files

A program that works with files is written against the operations it needs, so
that it can be run on the files of a machine and on files that are a value.
-/

namespace Folio.Files

structure Access (m : Type → Type) where
  /-- Whether a path leads to a file; a path that leads nowhere does not. -/
  isFile : Path → m (Except Fault Bool)
  isDirectory : Path → m Bool
  read : Path → m (Except Fault (List UInt8))
  /-- Make a directory whose parent is there. -/
  makeDirectory : Path → m (Except Fault Unit)
  /-- Give a file its content, and make the file if necessary. -/
  write : Path → List UInt8 → m (Except Fault Unit)

namespace Access

variable {m : Type → Type} [Monad m]

/-- Take a directory that is there for one that was made. -/
def accept (files : Access m) (path : Path) : Except Fault Unit → m (Except Fault Unit)
  | .ok () => return .ok ()
  | .error fault => do
      if ← files.isDirectory path then return .ok () else return .error fault

/-- Make a directory unless it is there, and before it those above it that are
missing, if there are less of them than a number.  The names are given from the
last to the first. -/
def makeNames (files : Access m) (start : Start) : Nat → List String → m (Except Fault Unit)
  | 0, _ => return .error .tooDeep
  | _ + 1, [] => do files.accept ⟨start, []⟩ (← files.makeDirectory ⟨start, []⟩)
  | room + 1, name :: above => do
      let path : Path := ⟨start, (name :: above).reverse⟩
      match ← files.makeDirectory path with
      | .error (.refused .missing _) =>
          match ← files.makeNames start room above with
          | .error fault => return .error fault
          | .ok () => files.accept path (← files.makeDirectory path)
      | outcome => files.accept path outcome

/-- How many directories below one another are looked at, from the lowest one
upwards, until one is found whose parent is there. -/
def depthLimit : Nat := 989

/-- Make a directory and those above it, unless they are there. -/
def makeDirectories (files : Access m) (path : Path) : m (Except Fault Unit) :=
  files.makeNames path.start depthLimit path.names.reverse

/-- Give a file its content; the directory it lies in is made if necessary. -/
def save (files : Access m) (path : Path) (content : List UInt8) : m (Except Fault Unit) := do
  match ← files.makeDirectories path.parent with
  | .error fault => return .error fault
  | .ok () => files.write path content

end Access

end Folio.Files
