import Folio.Proofs.Footprint

/-!
# Runs that replace their input

A page without a named output is written beside its document, under the name of the
document with the suffix of pages.  That is another place, and the document stays as it
was, unless it already has that suffix: then a run that ends with success puts the page in
the place of the document, and one that breaks off because the page cannot be encoded
leaves nothing there.
-/

namespace Folio

namespace Files

/-! ### Names with the suffix of pages -/

namespace Path

/-- A name with the suffix of pages behind other characters. -/
def IsPageName (name : String) : Prop := ∃ front, front ≠ "" ∧ name = front ++ ".html"

theorem stem_page {front : String} (nonempty : front ≠ "") : stem (front ++ ".html") = front := by
  have behind : ((front ++ ".html").toList.reverse.takeWhile (· != '.')).length = 4 := by
    rw [String.toList_append, List.reverse_append]
    rfl
  have length : (front ++ ".html").toList.length = front.toList.length + 5 := by
    rw [String.toList_append, List.length_append]
    rfl
  have long : 0 < front.toList.length := by
    rw [List.length_pos_iff]
    exact mt String.toList_eq_nil_iff.mp nonempty
  simp only [stem, behind, length]
  rw [if_pos (by omega), String.toList_append,
    show front.toList.length + 5 - 4 - 1 = front.toList.length by omega, List.take_left,
    String.ofList_toList]

/-- Exactly such names are kept when their suffix is made that of pages. -/
theorem stem_append_eq_iff (name : String) : stem name ++ ".html" = name ↔ IsPageName name := by
  constructor
  · intro kept
    refine ⟨stem name, ?_, kept.symm⟩
    intro empty
    rw [empty] at kept
    rw [← kept] at empty
    revert empty
    decide
  · rintro ⟨front, nonempty, rfl⟩
    rw [stem_page nonempty]

theorem append_page_ne_upward (front : String) : front ++ ".html" ≠ ".." := by
  intro upward
  have short : front.length + ".html".length = "..".length := by
    rw [← String.length_append, upward]
  have suffix : ".html".length = 5 := rfl
  have upwards : "..".length = 2 := rfl
  omega

theorem withSuffix_eq_iff (path : Path) :
    path.withSuffix ".html" = path ↔ IsPageName path.name := by
  obtain ⟨start, names⟩ := path
  rcases List.eq_nil_or_concat names with rfl | ⟨above, name, rfl⟩
  · have noName : ¬ IsPageName "" := by
      rw [← stem_append_eq_iff]
      decide
    simp [withSuffix, Path.name, noName]
  · rw [← stem_append_eq_iff]
    simp [withSuffix, Path.name]

end Path

/-! ### Where a name leads -/

namespace Standpoint

/-- The location that a name leads to from another, whatever lies there. -/
def follow (location : Location) (name : String) : Location :=
  if name = ".." then location.dropLast else location ++ [name]

theorem location_up (standpoint : Standpoint) :
    standpoint.up.location = standpoint.location.dropLast := by
  simp [up, location]

theorem toward_eq_ok {standpoint : Standpoint} {name : String} {target : Location}
    (leads : standpoint.toward name = .ok target) : target = follow standpoint.location name := by
  unfold toward at leads
  split at leads
  · cases leads
  · split at leads
    · rename_i upward
      cases leads
      rw [follow, if_pos upward, location_up]
    · rename_i downward
      cases leads
      rw [follow, if_neg downward]

theorem location_of_enter {standpoint next : Standpoint} {name : String}
    (entered : standpoint.enter name = .ok next) :
    next.location = follow standpoint.location name := by
  obtain ⟨-, ⟨upward, rfl⟩ | ⟨downward, inner, -, rfl⟩⟩ := enter_eq_ok entered
  · rw [follow, if_pos upward, location_up]
  · rw [follow, if_neg downward, location_down]

/-- Where names lead does not depend on what lies there, provided that they lead
somewhere. -/
theorem locate_eq_ok {standpoint : Standpoint} {names : List String} {target : Location}
    (leads : standpoint.locate names = .ok target) :
    target = names.foldl follow standpoint.location := by
  induction names generalizing standpoint with
  | nil =>
      cases leads
      rfl
  | cons name rest inductionHypothesis =>
      cases rest with
      | nil => exact toward_eq_ok leads
      | cons second others =>
          obtain ⟨next, entered, onward⟩ := locate_cons_eq_ok leads
          rw [List.foldl_cons, ← location_of_enter entered]
          exact inductionHypothesis onward

end Standpoint

namespace Tree

variable {tree : Tree} {path : Path} {location : Location}

theorem eq_of_locationOf (leads : tree.locationOf path = .ok location) :
    location = (tree.origin path ++ path.names).foldl Standpoint.follow [] :=
  Standpoint.locate_eq_ok (locationOf_eq_ok leads).2.2

/-- A path with another suffix leads to a place beside. -/
theorem eq_of_locationOf_withSuffix {suffix : String}
    (notUpward : ∀ front : String, front ++ suffix ≠ "..")
    (leads : tree.locationOf (path.withSuffix suffix) = .ok location) :
    location = (tree.origin path ++ path.names.dropLast).foldl Standpoint.follow [] ++
      [Path.stem path.name ++ suffix] := by
  have there := eq_of_locationOf leads
  have names : (path.withSuffix suffix).names =
      path.names.dropLast ++ [Path.stem path.name ++ suffix] := rfl
  rw [names, ← List.append_assoc, List.foldl_append, List.foldl_cons, List.foldl_nil,
    Standpoint.follow, if_neg (notUpward _)] at there
  exact there

/-- It leads elsewhere than the path itself, unless the suffix was there before. -/
theorem withSuffix_eq_of_location {left : Tree} {suffix : String}
    (sameStart : left.workingDirectory = tree.workingDirectory)
    (notUpward : ∀ front : String, front ++ suffix ≠ "..")
    (leads : tree.locationOf path = .ok location)
    (leadsAlso : left.locationOf (path.withSuffix suffix) = .ok location) :
    path.withSuffix suffix = path := by
  have here := eq_of_locationOf leads
  have there := eq_of_locationOf_withSuffix notUpward leadsAlso
  have origin : left.origin path = tree.origin path := by
    simp only [Tree.origin, sameStart]
  rw [origin] at there
  obtain ⟨start, names⟩ := path
  generalize tree.origin ⟨start, names⟩ = base at here there
  rcases List.eq_nil_or_concat names with rfl | ⟨above, name, rfl⟩
  · have longer := congrArg List.length (here.symm.trans there)
    simp at longer
  · simp only [List.dropLast_concat, List.concat_eq_append] at here there
    rw [← List.append_assoc, List.foldl_append, List.foldl_cons, List.foldl_nil, there,
      Standpoint.follow] at here
    split at here
    · have longer := congrArg List.length here
      simp at longer
      omega
    · have sameName : Path.stem name ++ suffix = name := by
        simpa [Path.name] using here
      simp [Path.withSuffix, Path.name, sameName]

/-! ### The working directory -/

theorem keeps_workingDirectory_change {operation : Tree → Except Fault Tree}
    (puts : ∀ {written}, operation tree = .ok written →
      ∃ location entry, written = tree.put location entry) :
    (change operation tree).2.workingDirectory = tree.workingDirectory := by
  cases changed : operation tree with
  | error fault => rw [change_of_error changed]
  | ok written =>
      obtain ⟨location, entry, rfl⟩ := puts changed
      rw [change_of_ok changed]
      exact workingDirectory_put tree location entry

theorem keeps_workingDirectory_save (path : Path) (content : List UInt8) :
    Keeps workingDirectory (access.save path content) := by
  have makes (path : Path) : Keeps workingDirectory (access.makeDirectory path) := fun tree =>
    keeps_workingDirectory_change fun made => by
      obtain ⟨location, -, rfl⟩ := makeDirectory_eq_ok made
      exact ⟨location, _, rfl⟩
  refine Keeps.bind (keeps_makeNames makes _ _ _) fun made => ?_
  split
  · exact keeps_pure _
  · refine fun tree => keeps_workingDirectory_change fun wrote => ?_
    obtain ⟨location, -, -, rfl⟩ := write_eq_ok wrote
    exact ⟨location, _, rfl⟩

end Tree

end Files

namespace Command

open Files

/-! ### Words that name no output -/

/-- The setting that the options of one word name, if any. -/
def Cluster.setting? (cluster : Cluster) : Option Setting :=
  match cluster.remainder with
  | .nothing => none
  | .given setting _ | .wanted setting => some setting

/-- The setting that a word names, if it is of options that can be read. -/
def Word.setting? : Word → Option Setting
  | .option spelled => spelled.read.toOption.bind Cluster.setting?
  | .operand _ | .separator | .unknown _ => none

/-- None of some words names an output. -/
def LacksOutput (seen : List Word) : Prop := ∀ word ∈ seen, word.setting? ≠ some .output

theorem LacksOutput.behind {word : Word} {rest : List Word} (lacks : LacksOutput (word :: rest)) :
    LacksOutput rest :=
  (List.forall_mem_cons.mp lacks).2

/-- A command line without a word that names an output. -/
def NamesNoOutput (words : List String) : Prop := ∀ seen, seeAll words = .ok seen → LacksOutput seen

namespace Reading

theorem output_foldlM_raise {flags : List Flag} {arguments raised : Arguments}
    (taken : flags.foldlM Arguments.raise arguments = .ok raised) :
    raised.output = arguments.output := by
  induction flags generalizing arguments with
  | nil =>
      cases taken
      rfl
  | cons flag rest inductionHypothesis =>
      rw [List.foldlM_cons] at taken
      obtain ⟨changed, next, onward⟩ := bind_eq_ok_iff.mp taken
      rw [inductionHypothesis onward]
      cases flag <;> cases next <;> rfl

theorem output_raiseAll {reading raised : Reading} {flags : List Flag}
    (taken : reading.raiseAll flags = .ok raised) :
    raised.arguments.output = reading.arguments.output := by
  unfold raiseAll at taken
  obtain ⟨arguments, found, rest⟩ := bind_eq_ok_iff.mp taken
  cases rest
  exact output_foldlM_raise found

theorem output_operand (reading : Reading) (text : String) :
    (reading.operand text).arguments.output = reading.arguments.output := by
  unfold operand
  split <;> rfl

theorem output_separator (reading : Reading) :
    reading.separator.arguments.output = reading.arguments.output := by
  unfold separator
  split <;> rfl

theorem output_assign (reading : Reading) (value : Option String) {setting : Setting}
    (other : setting ≠ .output) :
    (reading.assign value setting).arguments.output = reading.arguments.output := by
  cases setting with
  | output => contradiction
  | bodyClass | stylesheet | encoding => rfl

theorem output_takeOption {reading next : Reading} {spelled : Spelled}
    {following : Option String} {used : Bool}
    (unnamed : (Word.option spelled).setting? ≠ some .output)
    (taken : reading.takeOption spelled following = .ok (next, used)) :
    next.arguments.output = reading.arguments.output := by
  unfold takeOption at taken
  obtain ⟨⟨flags, remainder⟩, read, taken⟩ := bind_eq_ok_iff.mp taken
  have other : Cluster.setting? ⟨flags, remainder⟩ ≠ some .output := by
    simpa [Word.setting?, (mapError_eq_ok_iff _).mp read, Except.toOption] using unnamed
  cases remainder with
  | nothing =>
      obtain ⟨flagged, raised, rest⟩ := bind_eq_ok_iff.mp taken
      cases rest
      exact output_raiseAll raised
  | given setting value =>
      obtain ⟨flagged, raised, rest⟩ := bind_eq_ok_iff.mp taken
      cases rest
      rw [output_assign _ _ (by simpa [Cluster.setting?] using other), output_raiseAll raised]
  | wanted setting =>
      cases following with
      | none => cases taken
      | some text =>
          obtain ⟨flagged, raised, rest⟩ := bind_eq_ok_iff.mp taken
          cases rest
          rw [output_assign _ _ (by simpa [Cluster.setting?] using other), output_raiseAll raised]

/-- Words that name no output leave it as it is. -/
theorem output_take {reading next : Reading} {seen : List Word} (lacks : LacksOutput seen)
    (taken : reading.take seen = .ok next) :
    next.arguments.output = reading.arguments.output := by
  fun_induction take reading seen with
  | case1 reading =>
      cases taken
      rfl
  | case2 reading text rest vacant inductionHypothesis =>
      rw [inductionHypothesis lacks.behind.behind taken, output_operand]
  | case3 reading text rest filled inductionHypothesis =>
      rw [inductionHypothesis lacks.behind.behind taken, output_separator, output_operand]
  | case4 reading text rest other inductionHypothesis =>
      rw [inductionHypothesis lacks.behind taken, output_operand]
  | case5 reading rest inductionHypothesis =>
      rw [inductionHypothesis lacks.behind taken, output_separator]
  | case6 reading text rest inductionHypothesis =>
      rw [inductionHypothesis lacks.behind taken]
      rfl
  | case7 reading spelled text rest afterValue afterOption =>
      obtain ⟨⟨chosen, used⟩, found, onward⟩ := bind_eq_ok_iff.mp taken
      have kept := output_takeOption (lacks _ (by simp)) found
      cases used with
      | true => rw [afterValue chosen lacks.behind.behind onward, kept]
      | false => rw [afterOption chosen lacks.behind onward, kept]
  | case8 reading spelled rest other inductionHypothesis =>
      obtain ⟨⟨chosen, used⟩, found, onward⟩ := bind_eq_ok_iff.mp taken
      have kept := output_takeOption (lacks _ (by simp)) found
      rw [inductionHypothesis chosen lacks.behind onward, kept]

end Reading

variable {words : List String} {request : Request} {tree : Tree}

theorem output_eq_none (unnamed : NamesNoOutput words) {arguments : Arguments}
    (read : Arguments.ofWords words = .ok arguments) : arguments.output = none := by
  unfold Arguments.ofWords at read
  obtain ⟨seen, saw, read⟩ := bind_eq_ok_iff.mp read
  obtain ⟨reading, taken, read⟩ := bind_eq_ok_iff.mp read
  split at read
  · cases read
    exact Reading.output_take (unnamed seen ((mapError_eq_ok_iff _).mp saw)) taken
  · cases read

/-- Without a named output a page is written beside its document. -/
theorem output_beside (unnamed : NamesNoOutput words)
    (asked : Request.ofWords words = .ok request) :
    request.output = request.input.withSuffix ".html" := by
  obtain ⟨arguments, text, read, -, rfl⟩ := request_eq_ok asked
  simp only [Arguments.outputFor, output_eq_none unnamed read]
  rfl

/-! ### The input after a run -/

theorem keeps_workingDirectory_run (codecs : Encoding.Codecs) (request : Request) :
    Tree.Keeps Tree.workingDirectory (request.run codecs Tree.access) := by
  have performs : Tree.Keeps Tree.workingDirectory (request.perform codecs Tree.access) := by
    refine Tree.Keeps.bind (fun _ => rfl) fun present => ?_
    split
    · exact Tree.keeps_pure _
    · split
      · exact Tree.keeps_pure _
      · refine Tree.Keeps.bind (Tree.keeps_workingDirectory_save _ _) fun saved => ?_
        split <;> exact Tree.keeps_pure _
  refine Tree.Keeps.bind (fun _ => rfl) fun isFile => ?_
  split
  · exact Tree.keeps_pure _
  · exact Tree.keeps_pure _
  · exact performs.bind fun performed => Tree.keeps_pure _

/-- A run for a request whose output lies beside the input leaves the input as it was,
unless there is a page and the input has the suffix of pages.  Then what is made of the
page is put in the place of the input. -/
theorem run_request_beside (codecs : Encoding.Codecs) {location : Location}
    {content : List UInt8} (beside : request.output = request.input.withSuffix ".html")
    (leads : tree.locationOf request.input = .ok location)
    (lies : tree.contentAt? location = some content) :
    ((request.run codecs Tree.access tree).2.contentAt? location = some content ∧
        ((∀ page, (request.run codecs Tree.access tree).1.ending ≠ .ofPage page) ∨
          ¬ Path.IsPageName request.input.name)) ∨
      Path.IsPageName request.input.name ∧
        ∃ page, (request.run codecs Tree.access tree).1.ending = .ofPage page ∧
          (request.page codecs content).2 = .ok page ∧
          (request.run codecs Tree.access tree).2.contentAt? location =
            some (Request.contentOf page) := by
  have sameStart := keeps_workingDirectory_run codecs request tree
  rcases run_request_cases codecs request tree with
    ⟨fails, keeps⟩ | ⟨bytes, page, written, ends, reads, made, leadsOut, holds, others⟩
  · exact .inl ⟨(keeps location).trans lies, .inl fails⟩
  · rw [beside] at leadsOut
    by_cases named : Path.IsPageName request.input.name
    · rw [(Path.withSuffix_eq_iff request.input).mpr named] at leadsOut
      obtain ⟨origin, leadsIn, found⟩ := Tree.read_eq_ok reads
      obtain rfl : location = origin := Except.ok.inj (leads.symm.trans leadsIn)
      obtain rfl : content = bytes := Option.some.inj (lies.symm.trans found)
      have sameOrigin : (request.run codecs Tree.access tree).2.origin request.input =
          tree.origin request.input := by
        simp only [Tree.origin, sameStart]
      have samePlace : written = location := by
        rw [Tree.eq_of_locationOf leads, Tree.eq_of_locationOf leadsOut, sameOrigin]
      exact .inr ⟨named, page, ends, made, samePlace ▸ holds⟩
    · have elsewhere : location ≠ written := by
        rintro rfl
        refine named ((Path.withSuffix_eq_iff request.input).mp ?_)
        exact Tree.withSuffix_eq_of_location sameStart Path.append_page_ne_upward leads leadsOut
      exact .inl ⟨(others location elsewhere).trans lies, .inr named⟩

/-- Without a named output a run leaves its input as it was, unless the input has the
suffix of pages and the run ends with success or breaks off over a page that cannot be
encoded.  Then the input is replaced by its page, or emptied. -/
theorem run_spares_input (codecs : Encoding.Codecs) (unnamed : NamesNoOutput words)
    (tree : Tree) :
    (∀ stop, Request.ofWords words = .error stop →
        (runWith codecs Tree.access words tree).2 = tree) ∧
      ∀ request location content, Request.ofWords words = .ok request →
        tree.locationOf request.input = .ok location → tree.contentAt? location = some content →
          (((runWith codecs Tree.access words tree).1.ending ≠ .finished 0 ∧
                ∀ fault, (runWith codecs Tree.access words tree).1.ending ≠
                  .broken (.unencodable fault)) ∨
              ¬ Path.IsPageName request.input.name →
            (runWith codecs Tree.access words tree).2.contentAt? location = some content) ∧
          ((runWith codecs Tree.access words tree).1.ending = .finished 0 →
            Path.IsPageName request.input.name →
              ∃ html, (request.page codecs content).2 = .ok (.ok html) ∧
                (runWith codecs Tree.access words tree).2.contentAt? location =
                  some (Encoding.Utf8.encode html.toList)) ∧
          ∀ fault, (runWith codecs Tree.access words tree).1.ending =
              .broken (.unencodable fault) →
            Path.IsPageName request.input.name →
              (request.page codecs content).2 = .ok (.error fault) ∧
                (runWith codecs Tree.access words tree).2.contentAt? location = some [] := by
  refine ⟨fun stop stopped => by simp only [runWith, stopped]; rfl, ?_⟩
  intro request location content asked leads lies
  have runs : runWith codecs Tree.access words tree = request.run codecs Tree.access tree := by
    simp only [runWith, asked]
  rw [runs]
  rcases run_request_beside codecs (output_beside unnamed asked) leads lies with
    ⟨kept, fails | unlike⟩ | ⟨named, page, ends, made, holds⟩
  · exact ⟨fun _ => kept, fun finished => absurd finished (fails (.ok "")),
      fun fault broken => absurd broken (fails (.error fault))⟩
  · exact ⟨fun _ => kept, fun _ named => absurd named unlike, fun _ _ named => absurd named unlike⟩
  · cases page with
    | ok html =>
        refine ⟨?_, fun _ _ => ⟨html, made, holds⟩, fun fault broken => ?_⟩
        · rintro (⟨unfinished, -⟩ | unlike)
          · exact absurd ends unfinished
          · exact absurd named unlike
        · cases ends.symm.trans broken
    | error other =>
        refine ⟨?_, fun finished => ?_, fun fault broken _ => ?_⟩
        · rintro (⟨-, unbroken⟩ | unlike)
          · exact absurd ends (unbroken other)
          · exact absurd named unlike
        · cases ends.symm.trans finished
        · cases ends.symm.trans broken
          exact ⟨made, holds⟩

theorem namesNoOutput_of_seeAll {seen : List Word} (saw : seeAll words = .ok seen)
    (unnamed : seen.all (·.setting? != some .output) = true) : NamesNoOutput words := by
  intro others sawOthers word member
  obtain rfl : seen = others := Except.ok.inj (saw.symm.trans sawOthers)
  simpa using List.all_eq_true.mp unnamed word member

/-- The code that a run finished with. -/
def Ending.code? : Ending → Option Nat
  | .finished code => some code
  | .stopped _ | .broken _ => none

theorem eq_of_code? {ending : Ending} {code : Nat} (finished : ending.code? = some code) :
    ending = .finished code := by
  cases ending with
  | finished other => rw [Option.some.inj finished]
  | stopped | broken => cases finished

/-- The working directory with an empty document in a file with the given name. -/
def emptyDocument (name : String) : Tree := ⟨[], .file name [0x5B, 0x5D] .empty⟩

/-- The working directory with half of a surrogate pair in a document that is named like a
page. -/
def halfPage : Tree := ⟨[], .file "a.html" halfDocument .empty⟩

/-- After a run that succeeds a document whose name has another suffix is there, and one
whose name has the suffix of pages is not.  After a run that breaks off over half of a
surrogate pair such a file is empty. -/
theorem run_spares_input_json :
    NamesNoOutput ["a.json", "-v"] ∧
      (run Tree.access ["a.json", "-v"] (emptyDocument "a.json")).1.ending = .finished 0 ∧
      ¬ Path.IsPageName "a.json" ∧
      (run Tree.access ["a.json", "-v"] (emptyDocument "a.json")).2.contentAt? ["a.json"] =
        some [0x5B, 0x5D] ∧
      NamesNoOutput ["a.html"] ∧ Path.IsPageName "a.html" ∧
      (run Tree.access ["a.html"] (emptyDocument "a.html")).1.ending = .finished 0 ∧
      (∃ html, (run Tree.access ["a.html"] (emptyDocument "a.html")).2.contentAt? ["a.html"] =
        some (Encoding.Utf8.encode html)) ∧
      (run Tree.access ["a.html", "--body-only"] halfPage).1.ending =
        .broken (.unencodable ⟨15, [0xD800]⟩) ∧
      (run Tree.access ["a.html", "--body-only"] halfPage).2.contentAt? ["a.html"] = some [] := by
  unfold run
  have unnamed : NamesNoOutput ["a.json", "-v"] :=
    namesNoOutput_of_seeAll
      (by decide : seeAll ["a.json", "-v"] =
        .ok [.operand "a.json", .option ⟨.short, .flag .verbose, none⟩]) (by decide)
  have alsoUnnamed : NamesNoOutput ["a.html"] :=
    namesNoOutput_of_seeAll (by decide : seeAll ["a.html"] = .ok [.operand "a.html"]) (by decide)
  have bodyUnnamed : NamesNoOutput ["a.html", "--body-only"] :=
    namesNoOutput_of_seeAll
      (by decide : seeAll ["a.html", "--body-only"] =
        .ok [.operand "a.html", .option ⟨.long, .flag .bodyOnly, none⟩]) (by decide)
  have unlike : ¬ Path.IsPageName "a.json" := by
    rw [← Path.stem_append_eq_iff]
    decide
  have named : Path.IsPageName "a.html" := ⟨"a", by decide, by decide⟩
  have finished :
      (runWith .bare Tree.access ["a.html"] (emptyDocument "a.html")).1.ending = .finished 0 :=
    eq_of_code? (by decide +kernel)
  have broken : (runWith .bare Tree.access ["a.html", "--body-only"] halfPage).1.ending =
      .broken (.unencodable ⟨15, [0xD800]⟩) := eq_of_brokenPage? (by decide +kernel)
  obtain ⟨request, asked, input⟩ :
      ∃ request, Request.ofWords ["a.json", "-v"] = .ok request ∧
        request.input = .ofText "a.json" := ⟨_, rfl, rfl⟩
  obtain ⟨other, otherAsked, otherInput⟩ :
      ∃ request, Request.ofWords ["a.html"] = .ok request ∧
        request.input = .ofText "a.html" := ⟨_, rfl, rfl⟩
  obtain ⟨bodyOnly, bodyAsked, bodyInput⟩ :
      ∃ request, Request.ofWords ["a.html", "--body-only"] = .ok request ∧
        request.input = .ofText "a.html" := ⟨_, rfl, rfl⟩
  have kept := (run_spares_input .bare unnamed (emptyDocument "a.json")).2 request ["a.json"]
    [0x5B, 0x5D] asked (by rw [input]; rfl) (by decide)
  have replaced := (run_spares_input .bare alsoUnnamed (emptyDocument "a.html")).2 other
    ["a.html"] [0x5B, 0x5D] otherAsked (by rw [otherInput]; rfl) (by decide)
  have emptied := (run_spares_input .bare bodyUnnamed halfPage).2 bodyOnly ["a.html"]
    halfDocument bodyAsked (by rw [bodyInput]; rfl) rfl
  rw [input] at kept
  rw [otherInput] at replaced
  rw [bodyInput] at emptied
  obtain ⟨html, -, lies⟩ := replaced.2.1 finished named
  exact ⟨unnamed, eq_of_code? (by decide +kernel), unlike, kept.1 (.inr unlike), alsoUnnamed,
    named, finished, ⟨html.toList, lies⟩, broken, (emptied.2.2 _ broken named).2⟩

/-- A document in a file with the suffix of pages is lost in a run without a named output:
the body of its page is written over it, which here is empty. -/
theorem run_replaces_input :
    NamesNoOutput ["in.html", "--body-only"] ∧
      (emptyDocument "in.html").contentAt? ["in.html"] = some [0x5B, 0x5D] ∧
      (run Tree.access ["in.html", "--body-only"] (emptyDocument "in.html")).1.ending =
        .finished 0 ∧
      (run Tree.access ["in.html", "--body-only"] (emptyDocument "in.html")).2.contentAt?
        ["in.html"] = some [] :=
  ⟨namesNoOutput_of_seeAll
      (by decide : seeAll ["in.html", "--body-only"] =
        .ok [.operand "in.html", .option ⟨.long, .flag .bodyOnly, none⟩]) (by decide),
    by decide, eq_of_code? (by decide +kernel), by decide +kernel⟩

end Command

end Folio
