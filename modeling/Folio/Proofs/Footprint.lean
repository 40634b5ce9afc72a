import Folio.Proofs.Uploads

/-!
# The footprint of a run

A run of the command touches one file at most.  Making directories gives no file and
takes none away, and nothing is written before the page is there.  So a run that succeeds
has written the page of its input where the output path leads, and nothing else.  One that
ends in any other way leaves every file as it was, unless its page turns out to hold half
of a surrogate pair when the output is open already: then the output is left empty.
-/

namespace Folio

namespace Files

/-- Where a directory was put there is no file. -/
theorem Entry.contentAt?_put_directory (location : Location) (inner : Folder) (entry : Entry) :
    (entry.put location (.directory inner)).contentAt? location = none := by
  induction location generalizing entry with
  | nil => rfl
  | cons name rest inductionHypothesis =>
      cases entry with
      | file content => rfl
      | directory outer =>
          have below := inductionHypothesis ((outer.item? name).getD (.directory .empty))
          simpa [contentAt?, put, at?] using below

namespace Tree

variable {tree written saved : Tree} {path : Path} {content : List UInt8}

theorem contentAt?_eq_some {location : Location} :
    tree.contentAt? location = some content ↔ tree.entryAt? location = some (.file content) := by
  rw [contentAt?, Entry.contentAt?, entryAt?]
  cases tree.rootEntry.at? location with
  | none => simp
  | some entry => cases entry <;> simp

theorem contentAt?_of_vacant {location : Location} (vacant : tree.entryAt? location = none) :
    tree.contentAt? location = none := by
  rw [contentAt?, Entry.contentAt?, ← entryAt?, vacant]

/-- A path is read as the file that lies where the path leads. -/
theorem read_eq_ok (reads : tree.read path = .ok content) :
    ∃ location, tree.locationOf path = .ok location ∧
      tree.contentAt? location = some content := by
  unfold read at reads
  obtain ⟨location, leads, reads⟩ := bind_eq_ok_iff.mp reads
  split at reads
  · cases reads
  · cases reads
  · rename_i lies
    cases reads
    exact ⟨location, leads, contentAt?_eq_some.mpr lies⟩

/-- The root directory is always there. -/
theorem ne_nil_of_vacant {location : Location} (vacant : tree.entryAt? location = none) :
    location ≠ [] := by
  rintro rfl
  cases vacant

theorem makeDirectory_eq_ok (made : tree.makeDirectory path = .ok written) :
    ∃ location, tree.entryAt? location = none ∧
      written = tree.put location (.directory .empty) := by
  unfold makeDirectory at made
  obtain ⟨location, -, made⟩ := bind_eq_ok_iff.mp made
  split at made
  · rename_i vacant
    cases made
    exact ⟨location, vacant, rfl⟩
  · cases made

/-- A new directory is no file, and it takes the place of none. -/
theorem contentAt?_makeDirectory (made : tree.makeDirectory path = .ok written)
    (other : Location) : written.contentAt? other = tree.contentAt? other := by
  obtain ⟨location, vacant, rfl⟩ := makeDirectory_eq_ok made
  have below := ne_nil_of_vacant vacant
  by_cases here : other = location
  · subst here
    rw [contentAt?_of_vacant vacant, contentAt?, rootEntry_put tree below]
    exact Entry.contentAt?_put_directory other .empty tree.rootEntry
  · refine contentAt?_put_of_ne tree below here rfl fun present lies => ?_
    rw [vacant] at lies
    cases lies

/-- A file that is written is the only one that changes. -/
theorem contentAt?_write (wrote : tree.write path content = .ok written) :
    ∃ location, written.locationOf path = .ok location ∧
      written.contentAt? location = some content ∧
      ∀ other, other ≠ location → written.contentAt? other = tree.contentAt? other := by
  obtain ⟨location, leads, vacant, rfl⟩ := write_eq_ok wrote
  obtain ⟨found, leadsThere, holds⟩ := read_eq_ok (read_write wrote)
  have stays : (tree.put location (.file content)).locationOf path = .ok location :=
    locationOf_put leads vacant
  obtain rfl : location = found := by
    rw [stays] at leadsThere
    exact Except.ok.inj leadsThere
  have below : location ≠ [] := by
    rintro rfl
    exact vacant tree.root rfl
  refine ⟨location, stays, holds, fun other differs => ?_⟩
  refine contentAt?_put_of_ne tree below differs rfl fun present lies => ?_
  cases present with
  | file earlier => rfl
  | directory inner => exact absurd lies (vacant inner)

/-! ### Operations that keep something -/

/-- An operation keeps what is told of a tree. -/
def Keeps {Told Result : Type} (told : Tree → Told) (operation : StateM Tree Result) : Prop :=
  ∀ tree, told (operation tree).2 = told tree

/-- An operation on a tree that leaves every file as it is. -/
def KeepsFiles {Result : Type} (operation : StateM Tree Result) : Prop :=
  ∀ (tree : Tree) (location : Location),
    (operation tree).2.contentAt? location = tree.contentAt? location

variable {Told Result Next : Type} {told : Tree → Told}

theorem keeps_pure (result : Result) : Keeps told (pure result : StateM Tree Result) :=
  fun _ => rfl

theorem Keeps.bind {operation : StateM Tree Result} (keeps : Keeps told operation)
    {next : Result → StateM Tree Next} (keepsNext : ∀ result, Keeps told (next result)) :
    Keeps told (operation >>= next) := by
  intro tree
  calc told ((operation >>= next) tree).2
      = told (next (operation tree).1 (operation tree).2).2 := rfl
    _ = told (operation tree).2 := keepsNext _ _
    _ = told tree := keeps _

theorem keeps_accept (path : Path) (outcome : Except Fault Unit) :
    Keeps told (access.accept path outcome) := by
  cases outcome with
  | ok _ => exact keeps_pure _
  | error fault =>
      refine Keeps.bind (fun _ => rfl) fun isDirectory => ?_
      split
      · exact keeps_pure _
      · exact keeps_pure _

/-- What is kept when a directory is made is kept when several are. -/
theorem keeps_makeNames (makes : ∀ path, Keeps told (access.makeDirectory path)) (start : Start)
    (room : Nat) (names : List String) : Keeps told (access.makeNames start room names) := by
  induction room generalizing names with
  | zero => exact keeps_pure _
  | succ room inductionHypothesis =>
      cases names with
      | nil => exact (makes _).bind fun outcome => keeps_accept _ outcome
      | cons name above =>
          refine (makes _).bind fun outcome => ?_
          split
          · refine (inductionHypothesis above).bind fun madeAbove => ?_
            split
            · exact keeps_pure _
            · exact (makes _).bind fun again => keeps_accept _ again
          · exact keeps_accept _ _

theorem change_of_error {operation : Tree → Except Fault Tree} {fault : Fault}
    (failed : operation tree = .error fault) : change operation tree = (.error fault, tree) := by
  simp only [change, failed]

theorem change_of_ok {operation : Tree → Except Fault Tree}
    (changed : operation tree = .ok written) : change operation tree = (.ok (), written) := by
  simp only [change, changed]

theorem keepsFiles_makeDirectory (path : Path) : KeepsFiles (access.makeDirectory path) := by
  intro tree location
  change (change (·.makeDirectory path) tree).2.contentAt? location = _
  cases made : tree.makeDirectory path with
  | error fault => rw [change_of_error made]
  | ok grown =>
      rw [change_of_ok made]
      exact contentAt?_makeDirectory made location

theorem keepsFiles_makeNames (start : Start) (room : Nat) (names : List String) :
    KeepsFiles (access.makeNames start room names) := by
  have makes (path : Path) : Keeps contentAt? (access.makeDirectory path) :=
    fun tree => funext (keepsFiles_makeDirectory path tree)
  exact fun tree location => congrFun (keeps_makeNames makes start room names tree) location

/-- Saving either fails and changes no file, or writes one and changes no other. -/
theorem save_cases (tree : Tree) (path : Path) (content : List UInt8) :
    (∃ fault saved, access.save path content tree = (.error fault, saved) ∧
        ∀ location, saved.contentAt? location = tree.contentAt? location) ∨
      ∃ saved location, access.save path content tree = (.ok (), saved) ∧
        saved.locationOf path = .ok location ∧ saved.contentAt? location = some content ∧
        ∀ other, other ≠ location → saved.contentAt? other = tree.contentAt? other := by
  obtain ⟨⟨outcome, grown⟩, made⟩ :
      ∃ made, access.makeDirectories path.parent tree = made := ⟨_, rfl⟩
  have keeps (location : Location) : grown.contentAt? location = tree.contentAt? location := by
    have kept := keepsFiles_makeNames path.parent.start Access.depthLimit
      path.parent.names.reverse tree location
    rwa [← Access.makeDirectories, made] at kept
  cases outcome with
  | error fault =>
      have stops : access.save path content tree = (.error fault, grown) := by
        simp only [Access.save, bind, StateT.bind, made]
        rfl
      exact .inl ⟨fault, grown, stops, keeps⟩
  | ok _ =>
      have goesOn : access.save path content tree = change (·.write path content) grown := by
        simp only [Access.save, bind, StateT.bind, made]
        rfl
      rw [goesOn]
      cases wrote : grown.write path content with
      | error fault => exact .inl ⟨fault, grown, change_of_error wrote, keeps⟩
      | ok saved =>
          obtain ⟨location, leads, holds, others⟩ := contentAt?_write wrote
          exact .inr ⟨saved, location, change_of_ok wrote, leads, holds,
            fun other differs => (others other differs).trans (keeps other)⟩

end Tree

end Files

/-! ### Runs -/

namespace Command

open Files Text

theorem request_eq_ok {words : List String} {request : Request}
    (asked : Request.ofWords words = .ok request) :
    ∃ arguments text, Arguments.ofWords words = .ok arguments ∧ arguments.input = some text ∧
      request = ⟨.ofText text, arguments.outputFor (.ofText text), arguments.options,
        arguments.namelessClass?, arguments.encoding, arguments.verbose⟩ := by
  unfold Request.ofWords at asked
  obtain ⟨arguments, read, asked⟩ := bind_eq_ok_iff.mp asked
  split at asked
  · cases asked
  · cases asked
  · rename_i text _ given
    cases asked
    exact ⟨arguments, text, read, given, rfl⟩

variable {codecs : Encoding.Codecs} {words : List String} {request : Request} {tree : Tree}
  {bytes : List UInt8}

theorem pageOf_ne_unencodable (request : Request) (source : List Symbol)
    (fault : Encoding.EncodeFault) : (request.pageOf source).2 ≠ .error (.unencodable fault) := by
  cases classed : request.namelessClass with
  | none =>
      rw [snd_pageOf classed]
      cases publish request.options source <;> rintro ⟨⟩
  | some place =>
      rw [snd_pageOf_nameless classed]
      cases Document.parse (Json.firstPicture source) <;> rintro ⟨⟩

/-- That a page cannot be encoded comes to light after the page was made. -/
theorem page_ne_unencodable (codecs : Encoding.Codecs) (request : Request) (bytes : List UInt8)
    (fault : Encoding.EncodeFault) :
    (request.page codecs bytes).2 ≠ .error (.unencodable fault) := by
  cases named : request.encoding with
  | none => simp [Request.page, Request.sourceText, named]
  | some encoding =>
      rw [snd_page named]
      cases Encoding.decodeFile codecs encoding bytes with
      | error fault => rintro ⟨⟩
      | ok text => exact pageOf_ne_unencodable request _ fault

/-- Any other trouble ends a run in another way than a page does. -/
theorem ending_outcome_error (request : Request) (reports : List Progress) {trouble : Trouble}
    (other : ∀ fault, trouble ≠ .unencodable fault) (page : Except Encoding.EncodeFault String) :
    (request.outcome (reports, .error trouble)).ending ≠ .ofPage page := by
  rw [ending_of_error]
  cases page with
  | ok html => split <;> rintro ⟨⟩
  | error fault =>
      split
      · rintro ⟨⟩
      · intro same
        exact other fault (Ending.broken.inj same)

/-- Performing a request either fails and changes no file, or saves what is made of the
page of the input. -/
theorem perform_cases (codecs : Encoding.Codecs) (request : Request) (tree : Tree) :
    (∃ reports trouble left,
        request.perform codecs Tree.access tree = ((reports, .error trouble), left) ∧
        (∀ fault, trouble ≠ .unencodable fault) ∧
        ∀ location, left.contentAt? location = tree.contentAt? location) ∨
      ∃ reports left bytes page location,
        request.perform codecs Tree.access tree = (request.written reports page, left) ∧
        tree.read request.input = .ok bytes ∧ (request.page codecs bytes).2 = .ok page ∧
        left.locationOf request.output = .ok location ∧
        left.contentAt? location = some (Request.contentOf page) ∧
        ∀ other, other ≠ location → left.contentAt? other = tree.contentAt? other := by
  cases present : tree.read request.input with
  | error fault =>
      have unread : Tree.access.read request.input tree = (.error fault, tree) :=
        congrArg (·, tree) present
      have stops : request.perform codecs Tree.access tree =
          (([], .error (.files fault)), tree) := by
        simp only [Request.perform, bind, StateT.bind, unread]
        rfl
      exact .inl ⟨_, _, tree, stops, by rintro _ ⟨⟩, fun _ => rfl⟩
  | ok bytes =>
      rw [perform_of_present present]
      obtain ⟨⟨reports, made⟩, paged⟩ : ∃ paging, request.page codecs bytes = paging := ⟨_, rfl⟩
      cases made with
      | error trouble =>
          refine .inl ⟨reports, trouble, tree, by rw [paged], ?_, fun _ => rfl⟩
          rintro fault rfl
          exact page_ne_unencodable codecs request bytes fault (congrArg Prod.snd paged)
      | ok page =>
          rcases Tree.save_cases tree request.output (Request.contentOf page) with
            ⟨fault, saved, saves, keeps⟩ | ⟨saved, location, saves, leads, holds, others⟩
          · exact .inl ⟨reports, .files fault, saved, by simp only [paged, saves],
              by rintro _ ⟨⟩, keeps⟩
          · exact .inr ⟨reports, saved, bytes, page, location, by simp only [paged, saves], rfl,
              by rw [paged], leads, holds, others⟩

/-- A run for a request either fails and changes no file, or saves what is made of the page
of the input. -/
theorem run_request_cases (codecs : Encoding.Codecs) (request : Request) (tree : Tree) :
    ((∀ page, (request.run codecs Tree.access tree).1.ending ≠ .ofPage page) ∧
        ∀ location, (request.run codecs Tree.access tree).2.contentAt? location =
          tree.contentAt? location) ∨
      ∃ bytes page location,
        (request.run codecs Tree.access tree).1.ending = .ofPage page ∧
        tree.read request.input = .ok bytes ∧ (request.page codecs bytes).2 = .ok page ∧
        (request.run codecs Tree.access tree).2.locationOf request.output = .ok location ∧
        (request.run codecs Tree.access tree).2.contentAt? location =
          some (Request.contentOf page) ∧
        ∀ other, other ≠ location →
          (request.run codecs Tree.access tree).2.contentAt? other = tree.contentAt? other := by
  have looks : Tree.access.isFile request.input tree = (tree.isFile request.input, tree) := rfl
  simp only [Request.run, bind, StateT.bind, looks]
  cases tree.isFile request.input with
  | error fault => exact .inl ⟨by rintro (_ | _) ⟨⟩, fun _ => rfl⟩
  | ok isFile =>
      cases isFile with
      | false => exact .inl ⟨by rintro (_ | _) ⟨⟩, fun _ => rfl⟩
      | true =>
          rcases perform_cases codecs request tree with
            ⟨reports, trouble, left, performed, other, keeps⟩ |
            ⟨reports, left, bytes, page, location, performed, reads, made, written⟩
          · simp only [StateT.bind, bind, performed]
            exact .inl ⟨ending_outcome_error request reports other, keeps⟩
          · simp only [StateT.bind, bind, performed]
            exact .inr ⟨bytes, page, location, ending_written request reports page, reads, made,
              written⟩

/-- A document with nothing but half of a surrogate pair. -/
def halfDocument : List UInt8 :=
  Encoding.Utf8.encode "[\x7b\"text\": \"\\ud800\"\x7d]".toList

/-- The fault of a page that a run broke off with. -/
def Ending.brokenPage? : Ending → Option Encoding.EncodeFault
  | .broken (.unencodable fault) => some fault
  | _ => none

theorem eq_of_brokenPage? {ending : Ending} {fault : Encoding.EncodeFault}
    (broken : ending.brokenPage? = some fault) : ending = .broken (.unencodable fault) := by
  unfold Ending.brokenPage? at broken
  split at broken
  · rw [Option.some.inj broken]
  · cases broken

end Command

end Folio
