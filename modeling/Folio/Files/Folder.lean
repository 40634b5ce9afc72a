/-!
# Folders

A folder is a row of named items.  An item is a file with its content or a
folder with items of its own.  What lies at a location is found by going down
its names, and so is the place where something is put.  Putting a file or an
empty folder somewhere changes no file anywhere else.
-/

namespace Folio.Files

abbrev Location := List String

inductive Folder where
  | empty
  | file (name : String) (content : List UInt8) (others : Folder)
  | folder (name : String) (inner others : Folder)
  deriving DecidableEq, Repr

inductive Entry where
  | directory (inner : Folder)
  | file (content : List UInt8)
  deriving DecidableEq, Repr

namespace Folder

def item? (name : String) : Folder → Option Entry
  | empty => none
  | file other content others =>
      if other = name then some (.file content) else others.item? name
  | folder other inner others =>
      if other = name then some (.directory inner) else others.item? name

def add (name : String) (others : Folder) : Entry → Folder
  | .file content => file name content others
  | .directory inner => folder name inner others

/-- Let an item with a name be there instead of the one that was. -/
def setItem (name : String) (entry : Entry) : Folder → Folder
  | empty => empty.add name entry
  | file other content others =>
      if other = name then others.add name entry
      else file other content (others.setItem name entry)
  | folder other inner others =>
      if other = name then others.add name entry
      else folder other inner (others.setItem name entry)

/-- All files with the names on the way down to them, below some names. -/
def files (above : Location) : Folder → List (Location × List UInt8)
  | empty => []
  | file name content others => (above ++ [name], content) :: others.files above
  | folder name inner others => inner.files (above ++ [name]) ++ others.files above

/-- The folder that leads down by some names to an empty one. -/
def ofLocation : Location → Folder
  | [] => empty
  | name :: rest => folder name (ofLocation rest) empty

@[simp] theorem item?_add_self (name : String) (others : Folder) (entry : Entry) :
    (others.add name entry).item? name = some entry := by
  cases entry <;> simp [add, item?]

theorem item?_add_of_ne {name other : String} (differs : other ≠ name) (others : Folder)
    (entry : Entry) : (others.add name entry).item? other = others.item? other := by
  cases entry <;> simp [add, item?, differs.symm]

@[simp] theorem item?_setItem_self (name : String) (entry : Entry) (folder : Folder) :
    (folder.setItem name entry).item? name = some entry := by
  induction folder with
  | empty => simp [setItem]
  | file other content others inductionHypothesis =>
      by_cases same : other = name <;> simp [setItem, item?, same, inductionHypothesis]
  | folder other inner others _ inductionHypothesis =>
      by_cases same : other = name <;> simp [setItem, item?, same, inductionHypothesis]

theorem item?_setItem_of_ne {name other : String} (differs : other ≠ name) (entry : Entry)
    (folder : Folder) : (folder.setItem name entry).item? other = folder.item? other := by
  induction folder with
  | empty => simp [setItem, item?_add_of_ne differs]
  | file present content others inductionHypothesis =>
      by_cases same : present = name
      · subst same
        simp [setItem, item?, item?_add_of_ne differs, differs.symm]
      · simp [setItem, item?, same, inductionHypothesis]
  | folder present inner others _ inductionHypothesis =>
      by_cases same : present = name
      · subst same
        simp [setItem, item?, item?_add_of_ne differs, differs.symm]
      · simp [setItem, item?, same, inductionHypothesis]

end Folder

namespace Entry

def at? : Location → Entry → Option Entry
  | [], entry => some entry
  | _ :: _, file _ => none
  | name :: rest, directory inner =>
      match inner.item? name with
      | none => none
      | some entry => entry.at? rest

/-- Let something lie below an entry instead of what lay there.  Directories
that are missing on the way are made; nothing can be put below a file. -/
def put : Location → Entry → Entry → Entry
  | [], _, new => new
  | _ :: _, file content, _ => file content
  | name :: rest, directory inner, new =>
      directory (inner.setItem name (((inner.item? name).getD (directory .empty)).put rest new))

def contentAt? (location : Location) (entry : Entry) : Option (List UInt8) :=
  match entry.at? location with
  | some (file content) => some content
  | some (directory _) | none => none

/-- Whether an entry is a file or an empty directory. -/
def isLeaf : Entry → Bool
  | file _ => true
  | directory inner => inner = .empty

theorem at?_empty {location : Location} (below : location ≠ []) :
    (directory .empty).at? location = none := by
  cases location with
  | nil => contradiction
  | cons name rest => simp [at?, Folder.item?]

theorem at?_of_isLeaf {entry : Entry} (leaf : entry.isLeaf = true) {location : Location}
    (below : location ≠ []) : entry.at? location = none := by
  cases entry with
  | file content =>
      cases location with
      | nil => contradiction
      | cons name rest => rfl
  | directory inner =>
      have vacant : inner = .empty := by simpa [isLeaf] using leaf
      subst vacant
      exact at?_empty below

theorem at?_put_self (new : Entry) (name : String) {above : Location} {entry : Entry}
    {inner : Folder} (found : entry.at? above = some (directory inner)) :
    (entry.put (above ++ [name]) new).at? (above ++ [name]) = some new := by
  induction above generalizing entry with
  | nil =>
      obtain rfl : entry = directory inner := by simpa [at?] using found
      simp [put, at?]
  | cons first rest inductionHypothesis =>
      cases entry with
      | file content => simp [at?] at found
      | directory outer =>
          cases lies : outer.item? first with
          | none => simp [at?, lies] at found
          | some item =>
              have foundBelow : item.at? rest = some (directory inner) := by
                simpa [at?, lies] using found
              simpa [put, at?, lies] using inductionHypothesis foundBelow

/-- Putting a leaf where at most a leaf lay changes no file elsewhere. -/
theorem contentAt?_put_of_ne {new : Entry} (leaf : new.isLeaf = true)
    {location other : Location} (differs : other ≠ location) {entry : Entry}
    (vacant : ∀ present, entry.at? location = some present → present.isLeaf = true) :
    (entry.put location new).contentAt? other = entry.contentAt? other := by
  induction location generalizing other entry with
  | nil =>
      have leafBefore : entry.isLeaf = true := vacant entry rfl
      simp [contentAt?, put, at?_of_isLeaf leaf differs, at?_of_isLeaf leafBefore differs]
  | cons name rest inductionHypothesis =>
      cases entry with
      | file content => rfl
      | directory inner =>
          cases other with
          | nil => rfl
          | cons otherName otherRest =>
              by_cases same : otherName = name
              · subst same
                have differsBelow : otherRest ≠ rest := fun equal => differs (by rw [equal])
                cases lies : inner.item? otherName with
                | none =>
                    have vacantBelow : ∀ present,
                        (directory .empty).at? rest = some present → present.isLeaf = true := by
                      intro present found
                      cases rest with
                      | nil =>
                          obtain rfl : directory .empty = present := by simpa [at?] using found
                          rfl
                      | cons first further => simp [at?, Folder.item?] at found
                    have unchanged := inductionHypothesis differsBelow vacantBelow
                    have nothing : (directory .empty).contentAt? otherRest = none := by
                      cases otherRest with
                      | nil => rfl
                      | cons first further => simp [contentAt?, at?, Folder.item?]
                    rw [nothing] at unchanged
                    simpa [contentAt?, put, at?, lies] using unchanged
                | some item =>
                    have vacantBelow : ∀ present,
                        item.at? rest = some present → present.isLeaf = true :=
                      fun present found => vacant present (by simpa [at?, lies] using found)
                    have unchanged := inductionHypothesis differsBelow vacantBelow
                    simpa [contentAt?, put, at?, lies] using unchanged
              · simp [contentAt?, put, at?, Folder.item?_setItem_of_ne same]

end Entry

end Folio.Files
