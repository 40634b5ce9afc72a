import Folio.Files.Access
import Folio.Files.Folder

/-!
# Files as a value

A tree of files is the root directory with all that lies below it.  A path
leads to a location only through directories that are there, and a double point
leads from a directory to the one above it.  The root directory is its own
parent.  Nothing in a tree is protected, and there is room for whatever is written.
-/

namespace Folio.Files

structure Tree where
  workingDirectory : Location
  root : Folder
  deriving Repr

/-- A directory of a tree together with those above it. -/
structure Standpoint where
  root : Folder
  /-- The directories on the way down from the root with their names, the
  innermost first. -/
  trail : List (String × Folder)

namespace Standpoint

def folder (standpoint : Standpoint) : Folder :=
  match standpoint.trail with
  | [] => standpoint.root
  | (_, inner) :: _ => inner

def location (standpoint : Standpoint) : Location :=
  (standpoint.trail.map Prod.fst).reverse

def up (standpoint : Standpoint) : Standpoint :=
  { standpoint with trail := standpoint.trail.tail }

def down (standpoint : Standpoint) (name : String) (inner : Folder) : Standpoint :=
  { standpoint with trail := (name, inner) :: standpoint.trail }

def nameLimit : Nat := 255

/-- The location a name leads to, whether or not anything lies there. -/
def toward (standpoint : Standpoint) (name : String) : Except Reason Location :=
  if nameLimit < name.utf8ByteSize then .error .nameTooLong
  else if name = ".." then .ok standpoint.up.location
  else .ok (standpoint.location ++ [name])

def enter (standpoint : Standpoint) (name : String) : Except Reason Standpoint :=
  if nameLimit < name.utf8ByteSize then .error .nameTooLong
  else if name = ".." then .ok standpoint.up
  else
    match standpoint.folder.item? name with
    | none => .error .missing
    | some (.file _) => .error .notDirectory
    | some (.directory inner) => .ok (standpoint.down name inner)

/-- The location that names lead to.  Only the last of them may lead to
something other than a directory, or to nothing. -/
def locate (standpoint : Standpoint) : List String → Except Reason Location
  | [] => .ok standpoint.location
  | [name] => standpoint.toward name
  | name :: rest => do (← standpoint.enter name).locate rest

end Standpoint

namespace Tree

def rootEntry (tree : Tree) : Entry := .directory tree.root

def entryAt? (tree : Tree) (location : Location) : Option Entry := tree.rootEntry.at? location

def contentAt? (tree : Tree) (location : Location) : Option (List UInt8) :=
  tree.rootEntry.contentAt? location

/-- Let something lie at a location instead of what lay there.  The root
directory stays a directory. -/
def put (tree : Tree) (location : Location) (entry : Entry) : Tree :=
  match tree.rootEntry.put location entry with
  | .directory root => { tree with root }
  | .file _ => tree

/-- The names that lead from the root directory to where a path starts. -/
def origin (tree : Tree) (path : Path) : Location :=
  match path.start with
  | .workingDirectory => tree.workingDirectory
  | .rootDirectory | .doubledRoot => []

/-- The location a path leads to, whether or not anything lies there. -/
def locate (tree : Tree) (path : Path) : Except Reason Location :=
  Standpoint.locate ⟨tree.root, []⟩ (tree.origin path ++ path.names)

/-- The greatest number of bytes in the text of a path. -/
def pathLimit : Nat := 4095

/-- The location a path leads to, for an operation on it. -/
def locationOf (tree : Tree) (path : Path) : Except Fault Location :=
  if path.holdsNull then .error .nullInPath
  else if pathLimit < path.text.utf8ByteSize then .error (.refused .nameTooLong path)
  else (tree.locate path).mapError (.refused · path)

def find? (tree : Tree) (path : Path) : Option Entry :=
  (tree.locationOf path).toOption.bind tree.entryAt?

/-- Whether a path leads to a file.  Only what is too long, a name or the whole
path, cannot even be looked for. -/
def isFile (tree : Tree) (path : Path) : Except Fault Bool :=
  match tree.locationOf path with
  | .ok location => .ok (tree.entryAt? location matches some (.file _))
  | .error (.refused .nameTooLong path) => .error (.refused .nameTooLong path)
  | .error _ => .ok false

def isDirectory (tree : Tree) (path : Path) : Bool :=
  tree.find? path matches some (.directory _)

def read (tree : Tree) (path : Path) : Except Fault (List UInt8) := do
  match tree.entryAt? (← tree.locationOf path) with
  | none => throw (.refused .missing path)
  | some (.directory _) => throw (.refused .isDirectory path)
  | some (.file content) => return content

def makeDirectory (tree : Tree) (path : Path) : Except Fault Tree := do
  let location ← tree.locationOf path
  match tree.entryAt? location with
  | none => return tree.put location (.directory .empty)
  | some _ => throw (.refused .alreadyExists path)

def write (tree : Tree) (path : Path) (content : List UInt8) : Except Fault Tree := do
  let location ← tree.locationOf path
  match tree.entryAt? location with
  | some (.directory _) => throw (.refused .isDirectory path)
  | none | some (.file _) => return tree.put location (.file content)

/-- An operation that either changes the tree or finds a fault. -/
def change (operation : Tree → Except Fault Tree) : StateM Tree (Except Fault Unit) :=
  fun tree =>
    match operation tree with
    | .error fault => (.error fault, tree)
    | .ok changed => (.ok (), changed)

def access : Access (StateM Tree) where
  isFile path := fun tree => (tree.isFile path, tree)
  isDirectory path := fun tree => (tree.isDirectory path, tree)
  read path := fun tree => (tree.read path, tree)
  makeDirectory path := change (·.makeDirectory path)
  write path content := change (·.write path content)

/-- A tree that holds a working directory and what is above it. -/
def ofWorkingDirectory (location : Location) : Tree := ⟨location, .ofLocation location⟩

/-- The files in the working directory with their contents, in the order of
their paths. -/
def files (tree : Tree) : List (String × List UInt8) :=
  match tree.entryAt? tree.workingDirectory with
  | some (.directory inner) =>
      let found := (inner.files []).map fun (names, content) => ("/".intercalate names, content)
      found.mergeSort fun first second => first.1 ≤ second.1
  | some (.file _) | none => []

@[simp] theorem entryAt?_nil (tree : Tree) : tree.entryAt? [] = some tree.rootEntry := rfl

/-- Below the root directory, putting something is putting it below an
entry. -/
theorem rootEntry_put (tree : Tree) {location : Location} (below : location ≠ [])
    (entry : Entry) : (tree.put location entry).rootEntry = tree.rootEntry.put location entry := by
  cases location with
  | nil => contradiction
  | cons name rest => rfl

theorem entryAt?_put_self (tree : Tree) {above : Location} {inner : Folder}
    (found : tree.entryAt? above = some (.directory inner)) (name : String) (entry : Entry) :
    (tree.put (above ++ [name]) entry).entryAt? (above ++ [name]) = some entry := by
  rw [entryAt?, rootEntry_put tree (by simp) entry]
  exact Entry.at?_put_self entry name found

/-- Putting a file or an empty directory where no directory with items was
changes no file elsewhere. -/
theorem contentAt?_put_of_ne (tree : Tree) {location other : Location} (below : location ≠ [])
    (differs : other ≠ location) {entry : Entry} (leaf : entry.isLeaf = true)
    (vacant : ∀ present, tree.entryAt? location = some present → present.isLeaf = true) :
    (tree.put location entry).contentAt? other = tree.contentAt? other := by
  rw [contentAt?, rootEntry_put tree below entry]
  exact Entry.contentAt?_put_of_ne leaf differs vacant

end Tree

end Folio.Files
