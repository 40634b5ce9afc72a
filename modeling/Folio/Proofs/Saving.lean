import Folio.Files.Tree

/-!
# What is saved can be read

Putting a file where no directory lies leaves every directory in place.  So a path
that led to the place still leads there, and what was written is what is read.
-/

namespace Folio.Files

namespace Entry

theorem at?_append (entry : Entry) (above below : Location) :
    entry.at? (above ++ below) = (entry.at? above).bind (·.at? below) := by
  induction above generalizing entry with
  | nil => rfl
  | cons name rest inductionHypothesis =>
      cases entry with
      | file content => rfl
      | directory inner =>
          cases lies : inner.item? name with
          | none => simp [at?, lies]
          | some item => simpa [at?, lies] using inductionHypothesis item

/-- Putting something where no directory lies leaves every directory in place. -/
theorem exists_directory_put (new : Entry) {location other : Location} {entry : Entry}
    {inner : Folder}
    (vacant : ∀ present, entry.at? location ≠ some (directory present))
    (found : entry.at? other = some (directory inner)) :
    ∃ kept, (entry.put location new).at? other = some (directory kept) := by
  induction location generalizing other entry with
  | nil =>
      cases entry with
      | directory present => exact absurd rfl (vacant present)
      | file content => cases other <;> cases found
  | cons name rest inductionHypothesis =>
      cases entry with
      | file content => exact ⟨inner, found⟩
      | directory outer =>
          cases other with
          | nil => exact ⟨_, rfl⟩
          | cons otherName otherRest =>
              by_cases same : otherName = name
              · subst same
                cases lies : outer.item? otherName with
                | none => simp [at?, lies] at found
                | some item =>
                    have vacantBelow : ∀ present, item.at? rest ≠ some (directory present) :=
                      fun present below => vacant present (by simpa [at?, lies] using below)
                    have foundBelow : item.at? otherRest = some (directory inner) := by
                      simpa [at?, lies] using found
                    obtain ⟨kept, stays⟩ := inductionHypothesis vacantBelow foundBelow
                    exact ⟨kept, by simpa [put, at?, lies] using stays⟩
              · exact ⟨inner, by simpa [put, at?, Folder.item?_setItem_of_ne same] using found⟩

end Entry

namespace Standpoint

/-- A standpoint is right when each directory on the way down is the one that lies
there. -/
def IsRight (standpoint : Standpoint) : Prop :=
  ∀ trail, trail <:+ standpoint.trail →
    (Entry.directory standpoint.root).at? (location ⟨standpoint.root, trail⟩) =
      some (.directory (folder ⟨standpoint.root, trail⟩))

theorem isRight_root (root : Folder) : IsRight ⟨root, []⟩ := by
  intro trail isEnd
  obtain rfl := List.suffix_nil.mp isEnd
  rfl

theorem IsRight.at?_location {standpoint : Standpoint} (right : standpoint.IsRight) :
    (Entry.directory standpoint.root).at? standpoint.location =
      some (.directory standpoint.folder) :=
  right standpoint.trail List.suffix_rfl

theorem IsRight.up {standpoint : Standpoint} (right : standpoint.IsRight) :
    standpoint.up.IsRight :=
  fun trail isEnd => right trail (isEnd.trans (List.tail_suffix _))

theorem IsRight.at?_below {standpoint : Standpoint} (right : standpoint.IsRight) (name : String) :
    (Entry.directory standpoint.root).at? (standpoint.location ++ [name]) =
      standpoint.folder.item? name := by
  rw [Entry.at?_append, right.at?_location, Option.bind_some, Entry.at?]
  cases standpoint.folder.item? name <;> rfl

@[simp]
theorem location_down (standpoint : Standpoint) (name : String) (inner : Folder) :
    (standpoint.down name inner).location = standpoint.location ++ [name] := by
  simp [down, location]

theorem IsRight.down {standpoint : Standpoint} (right : standpoint.IsRight) {name : String}
    {inner : Folder} (lies : standpoint.folder.item? name = some (.directory inner)) :
    (standpoint.down name inner).IsRight := by
  intro trail isEnd
  rcases List.suffix_cons_iff.mp isEnd with rfl | shorter
  · have below := right.at?_below name
    rw [lies, ← location_down standpoint name inner] at below
    exact below
  · exact right trail shorter

theorem enter_eq_ok {standpoint next : Standpoint} {name : String}
    (entered : standpoint.enter name = .ok next) :
    ¬ nameLimit < name.utf8ByteSize ∧
      (name = ".." ∧ next = standpoint.up ∨
        name ≠ ".." ∧ ∃ inner, standpoint.folder.item? name = some (.directory inner) ∧
          next = standpoint.down name inner) := by
  unfold enter at entered
  split at entered
  · cases entered
  · rename_i short
    refine ⟨short, ?_⟩
    split at entered
    · rename_i upward
      cases entered
      exact .inl ⟨upward, rfl⟩
    · rename_i downward
      split at entered
      · cases entered
      · cases entered
      · rename_i inner lies
        cases entered
        exact .inr ⟨downward, inner, lies, rfl⟩

theorem IsRight.enter {standpoint next : Standpoint} (right : standpoint.IsRight) {name : String}
    (entered : standpoint.enter name = .ok next) :
    next.IsRight ∧ next.root = standpoint.root := by
  obtain ⟨-, ⟨-, rfl⟩ | ⟨-, inner, lies, rfl⟩⟩ := enter_eq_ok entered
  · exact ⟨right.up, rfl⟩
  · exact ⟨right.down lies, rfl⟩

theorem locate_cons_eq_ok {standpoint : Standpoint} {name second : String} {others : List String}
    {target : Location} (leads : standpoint.locate (name :: second :: others) = .ok target) :
    ∃ next, standpoint.enter name = .ok next ∧ next.locate (second :: others) = .ok target := by
  simp only [locate] at leads
  cases entered : standpoint.enter name with
  | error reason =>
      rw [entered] at leads
      cases leads
  | ok next =>
      rw [entered] at leads
      exact ⟨next, rfl, leads⟩

/-- A location that names lead to is that of a directory, or it lies in one. -/
theorem IsRight.locate {standpoint : Standpoint} (right : standpoint.IsRight)
    {names : List String} {target : Location} (leads : standpoint.locate names = .ok target) :
    (∃ inner, (Entry.directory standpoint.root).at? target = some (.directory inner)) ∨
      ∃ above name inner, target = above ++ [name] ∧
        (Entry.directory standpoint.root).at? above = some (.directory inner) := by
  induction names generalizing standpoint with
  | nil =>
      cases leads
      exact .inl ⟨_, right.at?_location⟩
  | cons name rest inductionHypothesis =>
      cases rest with
      | nil =>
          rw [Standpoint.locate, toward] at leads
          split at leads
          · cases leads
          · split at leads
            · cases leads
              exact .inl ⟨_, right.up.at?_location⟩
            · cases leads
              exact .inr ⟨_, name, _, rfl, right.at?_location⟩
      | cons second others =>
          obtain ⟨next, entered, onward⟩ := locate_cons_eq_ok leads
          obtain ⟨nextRight, sameRoot⟩ := right.enter entered
          rw [← sameRoot]
          exact inductionHypothesis nextRight onward

/-! ### The same way in another tree -/

/-- Two standpoints at one location, the second in a tree that has a directory wherever
the first tree has one. -/
structure Follows (standpoint other : Standpoint) : Prop where
  here : standpoint.IsRight
  there : other.IsRight
  names : other.trail.map Prod.fst = standpoint.trail.map Prod.fst
  keeps : ∀ location inner,
    (Entry.directory standpoint.root).at? location = some (.directory inner) →
      ∃ kept, (Entry.directory other.root).at? location = some (.directory kept)

namespace Follows

variable {standpoint other : Standpoint}

theorem location (follows : Follows standpoint other) : other.location = standpoint.location := by
  simp only [Standpoint.location, follows.names]

theorem up (follows : Follows standpoint other) : Follows standpoint.up other.up where
  here := follows.here.up
  there := follows.there.up
  names := by simp only [Standpoint.up, List.map_tail, follows.names]
  keeps := follows.keeps

theorem enter (follows : Follows standpoint other) {name : String} {next : Standpoint}
    (entered : standpoint.enter name = .ok next) :
    ∃ otherNext, other.enter name = .ok otherNext ∧ Follows next otherNext := by
  obtain ⟨short, ⟨rfl, rfl⟩ | ⟨downward, inner, lies, rfl⟩⟩ := enter_eq_ok entered
  · exact ⟨other.up, by simp [Standpoint.enter, short], follows.up⟩
  · have found := follows.here.at?_below name
    rw [lies] at found
    obtain ⟨kept, stays⟩ := follows.keeps _ _ found
    rw [← follows.location, follows.there.at?_below] at stays
    refine ⟨other.down name kept, by simp [Standpoint.enter, short, downward, stays], ?_⟩
    exact {
      here := follows.here.down lies
      there := follows.there.down stays
      names := by simp only [Standpoint.down, List.map_cons, follows.names]
      keeps := follows.keeps }

/-- Names that lead somewhere in the first tree lead there in the second. -/
theorem locate (follows : Follows standpoint other) {names : List String} {target : Location}
    (leads : standpoint.locate names = .ok target) : other.locate names = .ok target := by
  induction names generalizing standpoint other with
  | nil => rwa [Standpoint.locate, follows.location]
  | cons name rest inductionHypothesis =>
      cases rest with
      | nil => rwa [Standpoint.locate, toward, follows.location, follows.up.location]
      | cons second others =>
          obtain ⟨next, entered, onward⟩ := locate_cons_eq_ok leads
          obtain ⟨otherNext, otherEntered, following⟩ := follows.enter entered
          simp only [Standpoint.locate, otherEntered]
          exact inductionHypothesis following onward

end Follows

end Standpoint

namespace Tree

variable {tree written saved : Tree} {path : Path} {content : List UInt8}

theorem locationOf_eq_ok {location : Location} (leads : tree.locationOf path = .ok location) :
    path.holdsNull = false ∧ ¬ pathLimit < path.text.utf8ByteSize ∧
      tree.locate path = .ok location := by
  unfold locationOf at leads
  split at leads
  · cases leads
  · rename_i noNull
    split at leads
    · cases leads
    · rename_i short
      refine ⟨by simpa using noNull, short, ?_⟩
      cases located : tree.locate path with
      | error reason =>
          rw [located] at leads
          cases leads
      | ok found =>
          rw [located] at leads
          cases leads
          rfl

theorem workingDirectory_put (tree : Tree) (location : Location) (entry : Entry) :
    (tree.put location entry).workingDirectory = tree.workingDirectory := by
  unfold put
  split <;> rfl

/-- Putting a file where a path leads and no directory lies does not change where the
path leads. -/
theorem locationOf_put {location : Location} (leads : tree.locationOf path = .ok location)
    (vacant : ∀ inner, tree.entryAt? location ≠ some (.directory inner)) :
    (tree.put location (.file content)).locationOf path = .ok location := by
  obtain ⟨noNull, short, located⟩ := locationOf_eq_ok leads
  have below : location ≠ [] := by
    rintro rfl
    exact vacant tree.root rfl
  have follows :
      Standpoint.Follows ⟨tree.root, []⟩ ⟨(tree.put location (.file content)).root, []⟩ :=
    { here := Standpoint.isRight_root _
      there := Standpoint.isRight_root _
      names := rfl
      keeps := by
        intro other inner found
        have kept := Entry.exists_directory_put (.file content) vacant found
        rwa [← rootEntry_put tree below] at kept }
  have sameOrigin : (tree.put location (.file content)).origin path = tree.origin path := by
    simp only [origin, workingDirectory_put]
  have moved : (tree.put location (.file content)).locate path = .ok location := by
    rw [locate, sameOrigin]
    exact follows.locate located
  simp only [locationOf, noNull, short, moved, Bool.false_eq_true, if_false]
  rfl

theorem write_eq_ok (wrote : tree.write path content = .ok written) :
    ∃ location, tree.locationOf path = .ok location ∧
      (∀ inner, tree.entryAt? location ≠ some (.directory inner)) ∧
      written = tree.put location (.file content) := by
  unfold write at wrote
  cases leads : tree.locationOf path with
  | error fault =>
      rw [leads] at wrote
      cases wrote
  | ok location =>
      simp only [leads, bind, Except.bind] at wrote
      split at wrote
      · cases wrote
      · rename_i vacant
        cases wrote
        exact ⟨location, rfl, by simp [vacant], rfl⟩
      · rename_i earlier present
        cases wrote
        exact ⟨location, rfl, by simp [present], rfl⟩

/-- What is written to a path is read from it. -/
theorem read_write (wrote : tree.write path content = .ok written) :
    written.read path = .ok content := by
  obtain ⟨location, leads, vacant, rfl⟩ := write_eq_ok wrote
  have located := (locationOf_eq_ok leads).2.2
  rcases (Standpoint.isRight_root tree.root).locate located with ⟨inner, lies⟩ |
    ⟨above, name, inner, rfl, lies⟩
  · exact absurd lies (vacant inner)
  · have stays := entryAt?_put_self tree lies name (.file content)
    rw [read, locationOf_put leads vacant]
    simp only [bind, Except.bind, stays]
    rfl

/-- What is saved under a path is read from it. -/
theorem read_save (done : access.save path content tree = (.ok (), saved)) :
    saved.read path = .ok content := by
  simp only [Access.save, bind, StateT.bind] at done
  generalize access.makeDirectories path.parent tree = made at done
  obtain ⟨outcome, grown⟩ := made
  cases outcome with
  | error fault => cases done
  | ok _ =>
      have wrote : change (·.write path content) grown = (.ok (), saved) := done
      unfold change at wrote
      split at wrote
      · cases wrote
      · rename_i changed written
        cases wrote
        exact read_write written

end Tree

end Folio.Files
