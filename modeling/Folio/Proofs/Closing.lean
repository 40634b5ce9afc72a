import Folio.Proofs.Sheet
import Folio.Proofs.Simulation

/-!
# Closed sections are final

A pass sets the closed sections apart, so that no line can reach them.  This loses
nothing: a renderer that has the whole page at hand, looks for containers up to its
top and may change it anywhere goes through the same pages.  So the current section
always stands last in the body, a line changes nothing but that section or adds
something behind it, and a section that was closed stays as it was and where it was.
-/

namespace Folio

open Markup Render

/-! ### The current section in the page -/

namespace Sheet

/-- The place of the section that stands behind the closed part of a body. -/
def homeBehind (finished : Node) : Place := [1, finished.children.length]

/-- A page of a body with one more section. -/
def spread (head finished current : Node) : Node := assemble head (finished.appendChild current)

/-- A pass as a renderer sees it that has the whole page at hand. -/
def ofPass (head : Node) (pass : Pass) : Sheet :=
  ⟨spread head pass.finished pass.current, homeBehind pass.finished, pass.sectionNumber,
    pass.register, pass.nextNote, pass.link.map (homeBehind pass.finished ++ ·), pass.hint,
    pass.blob, pass.destination⟩

variable (head finished current : Node)

theorem children_spread :
    (spread head finished current).children = [head] ++ finished.appendChild current :: [] := rfl

theorem at?_spread (place : Place) :
    (spread head finished current).at? (homeBehind finished ++ place) = current.at? place :=
  calc (spread head finished current).at? (1 :: finished.children.length :: place)
      = (finished.appendChild current).at? (finished.children.length :: place) :=
        Element.at?_of_split (children_spread head finished current) rfl _
    _ = current.at? place := Element.at?_of_split rfl rfl place

theorem modifyAt_spread (change : Node → Node) (place : Place) :
    (spread head finished current).modifyAt change (homeBehind finished ++ place) =
      spread head finished (current.modifyAt change place) := by
  have inBody : (finished.appendChild current).modifyAt change
      (finished.children.length :: place) =
        finished.appendChild (current.modifyAt change place) :=
    Element.modifyAt_of_split rfl rfl change place
  calc (spread head finished current).modifyAt change (1 :: finished.children.length :: place)
      = assemble head ((finished.appendChild current).modifyAt change
          (finished.children.length :: place)) :=
        Element.modifyAt_of_split (children_spread head finished current) rfl change _
    _ = spread head finished (current.modifyAt change place) := congrArg _ inBody

theorem appendAt_spread (place : Place) (child : Node) :
    (spread head finished current).appendAt (homeBehind finished ++ place) child =
      (spread head finished (current.appendAt place child).1,
        homeBehind finished ++ (current.appendAt place child).2) := by
  simp only [Element.appendAt, at?_spread, modifyAt_spread, List.append_assoc]

/-- Changing the body of a page. -/
theorem modifyAt_bodyPlace (change : Node → Node) (body : Node) :
    (assemble head body).modifyAt change bodyPlace = assemble head (change body) := rfl

/-- A section put at the end of the body is the current one behind what was there. -/
theorem appendAt_bodyPlace (body child : Node) :
    (assemble head body).appendAt bodyPlace child =
      (spread head body child, homeBehind body) := rfl

/-- A search that ends in the current section ends at the same place seen from the top. -/
theorem closest?_spread_of_some {current : Node} {tags : List String} {place found : Place}
    (closest : current.closest? tags place = some found) :
    (spread head finished current).closest? tags (homeBehind finished ++ place) =
      some (homeBehind finished ++ found) := by
  have inBody : (finished.appendChild current).closest? tags
      (finished.children.length :: place) = some (finished.children.length :: found) :=
    Element.closest?_of_split rfl rfl closest
  exact Element.closest?_of_split (children_spread head finished current) rfl inBody

/-- A search for a container ends in the current section, which is one. -/
theorem closest?_spread {current : Node} {tags : List String}
    (tagged : current.isTagged tags = true) (place : Place) :
    ((spread head finished current).closest? tags (homeBehind finished ++ place)).getD
        (homeBehind finished) =
      homeBehind finished ++ (current.closest? tags place).getD [] := by
  obtain ⟨found, closest⟩ : ∃ found, current.closest? tags place = some found := by
    cases place with
    | nil => exact ⟨[], by simp [Element.closest?, tagged]⟩
    | cons index rest =>
        unfold Element.closest?
        split
        · rename_i inner _
          exact ⟨index :: inner, rfl⟩
        · exact ⟨[], by simp [tagged]⟩
  rw [closest?_spread_of_some head finished closest, closest]
  rfl

end Sheet

/-! ### The same steps on the whole page -/

namespace Sheet

variable {head : Node} {pass : Pass}

theorem current?_ofPass (head : Node) (pass : Pass) :
    (ofPass head pass).current? = some pass.current := by
  have found := at?_spread head pass.finished pass.current []
  rwa [List.append_nil] at found

theorem lastOrNew_ofPass (head : Node) (pass : Pass) (tag : String) :
    (ofPass head pass).lastOrNew tag =
      (spread head pass.finished (Render.lastOrNew tag pass.current).1,
        homeBehind pass.finished ++ (Render.lastOrNew tag pass.current).2) := by
  have appended := appendAt_spread head pass.finished pass.current [] (.new () tag [])
  rw [List.append_nil] at appended
  simp only [lastOrNew, current?_ofPass, Option.bind_some, Render.lastOrNew]
  cases pass.current.lastChild? fun _ => true with
  | none => exact appended
  | some found =>
      obtain ⟨index, child⟩ := found
      by_cases wanted : child.tag = tag
      · simp only [wanted, if_true]
        rfl
      · simp only [wanted, if_false]
        exact appended

theorem resolve_ofPass (head : Node) (pass : Pass) :
    (ofPass head pass).resolve =
      (Render.resolve pass.current pass.destination).map fun found =>
        (spread head pass.finished found.1, homeBehind pass.finished ++ found.2) := by
  have destination : (ofPass head pass).destination = pass.destination := rfl
  simp only [resolve, Render.resolve, destination, current?_ofPass, Option.bind_some]
  cases pass.destination with
  | body => exact congrArg Except.ok (lastOrNew_ofPass head pass "p")
  | head => exact congrArg Except.ok (lastOrNew_ofPass head pass "h2")
  | note =>
      cases notePlace? pass.current with
      | none => rfl
      | some place => rfl
  | cell =>
      cases cellPlace? pass.current with
      | none => rfl
      | some place => rfl

theorem append_ofPass (head : Node) (pass : Pass) (child : Node) :
    (ofPass head pass).append child =
      (pass.append child).map fun grown =>
        (ofPass head grown.1, homeBehind grown.1.finished ++ grown.2) := by
  simp only [append, Pass.append, resolve_ofPass]
  cases Render.resolve pass.current pass.destination with
  | error cause => rfl
  | ok found =>
      have appended := appendAt_spread head pass.finished found.1 found.2 child
      simp only [Except.map, bind, Except.bind, appended]
      rfl

theorem titled_ofPass (head : Node) (pass : Pass) (element : Node) :
    (ofPass head pass).titled element = pass.titled element := rfl

theorem newLink_ofPass (head : Node) (pass : Pass) (line : Directive) :
    (ofPass head pass).newLink line = (pass.newLink line).map (ofPass head) := by
  simp only [newLink, Pass.newLink, titled_ofPass, append_ofPass]
  cases pass.append (pass.titled (.new () "a" [("href", line.content.asText)])) <;> rfl

theorem newAnchor_ofPass (head : Node) (pass : Pass) (line : Directive) :
    (ofPass head pass).newAnchor line = (pass.newAnchor line).map (ofPass head) := by
  simp only [newAnchor, Pass.newAnchor, append_ofPass]
  cases pass.append (.new () "a" [("name", line.content.asText)]) <;> rfl

theorem newImage_ofPass (head : Node) (pass : Pass) (line : Directive) :
    (ofPass head pass).newImage line = (pass.newImage line).map (ofPass head) := by
  have source : (ofPass head pass).imageSource line = pass.imageSource line := rfl
  simp only [newImage, Pass.newImage, source, titled_ofPass, bind, Except.bind]
  cases pass.imageSource line with
  | error cause => rfl
  | ok found =>
      simp only [append_ofPass]
      cases pass.append (pass.titled (.new () "img" [("src", found.1)])) <;> rfl

theorem openNote_ofPass (head : Node) (pass : Pass) :
    (ofPass head pass).openNote = pass.openNote.map (ofPass head) := by
  have number : (ofPass head pass).nextNote = pass.nextNote := rfl
  simp only [openNote, Pass.openNote, append_ofPass, number]
  cases pass.append (Pass.noteMarker pass.nextNote) with
  | error cause => rfl
  | ok grown =>
      have noted := modifyAt_spread head grown.1.finished grown.1.current
        (·.appendChild (Pass.noteContainer pass.nextNote)) []
      rw [List.append_nil] at noted
      simp only [Except.map, bind, Except.bind, pure, Except.pure, ofPass, noted]
      rfl

theorem newTable_ofPass (head : Node) (pass : Pass) (line : Directive) :
    (ofPass head pass).newTable line = (pass.newTable line).map (ofPass head) := by
  have appended := appendAt_spread head pass.finished pass.current [] (.new () "table" [])
  rw [List.append_nil] at appended
  simp only [newTable, Pass.newTable, Table.declare, bind, Except.bind]
  cases Table.columnCount line.content with
  | error failure => rfl
  | ok columns =>
      simp only [pure, Except.pure, Except.map, ofPass, appended]
      rfl

theorem openCell_ofPass (head : Node) (pass : Pass) (header : Bool) :
    (ofPass head pass).openCell header = (pass.openCell header).map (ofPass head) := by
  simp only [openCell, Pass.openCell, Table.addCell, current?_ofPass, Option.bind_some, bind,
    Except.bind]
  cases pass.current.lastChild? (·.isTagged ["table"]) with
  | none => rfl
  | some found =>
      obtain ⟨index, table⟩ := found
      have register : (ofPass head pass).register = pass.register := rfl
      have number : (ofPass head pass).sectionNumber = pass.sectionNumber := rfl
      simp only [register, number]
      cases pass.register.columns? ⟨pass.sectionNumber, index⟩ with
      | none => rfl
      | some columns =>
          have laid := modifyAt_spread head pass.finished pass.current
            (Table.layCell columns (Table.newCell header)) [index]
          simp only [pure, Except.pure, Except.map, ofPass, laid]
          rfl

theorem isPrefixOf_home (finished : Node) (place link : Place) :
    (homeBehind finished ++ place).isPrefixOf (homeBehind finished ++ link) =
      place.isPrefixOf link := by
  simp [homeBehind, List.isPrefixOf]

theorem addRun_ofPass (head : Node) (pass : Pass) (run : TextRun) :
    (ofPass head pass).addRun run = (pass.addRun run).map (ofPass head) := by
  have linked : (ofPass head pass).link = pass.link.map (homeBehind pass.finished ++ ·) := rfl
  simp only [addRun, Pass.addRun, resolve_ofPass, linked]
  cases Render.resolve pass.current pass.destination with
  | error cause => rfl
  | ok found =>
      have added (target : Place) :=
        modifyAt_spread head pass.finished found.1 (appendRun run) target
      cases waiting : pass.link with
      | none =>
          simp only [Except.map, bind, Except.bind, pure, Except.pure, Option.map_none, added,
            ofPass, waiting]
      | some link =>
          simp only [Except.map, bind, Except.bind, pure, Except.pure, Option.map_some,
            isPrefixOf_home]
          split
          · simp only [added, ofPass, waiting, Option.map_some]
          · simp only [added, ofPass, waiting, Option.map_some]

theorem tag_lastOrNew (tag : String) (current : Node) :
    (Render.lastOrNew tag current).1.tag = current.tag := by
  unfold Render.lastOrNew
  split
  · split <;> rfl
  · rfl

theorem tag_resolve {current grown : Node} {destination : Destination} {place : Place}
    (resolved : Render.resolve current destination = .ok (grown, place)) :
    grown.tag = current.tag := by
  cases destination with
  | body =>
      have kept := tag_lastOrNew "p" current
      rwa [Except.ok.inj resolved] at kept
  | head =>
      have kept := tag_lastOrNew "h2" current
      rwa [Except.ok.inj resolved] at kept
  | note =>
      simp only [Render.resolve] at resolved
      split at resolved <;> cases resolved
      rfl
  | cell =>
      simp only [Render.resolve] at resolved
      split at resolved <;> cases resolved
      rfl

theorem newParagraph_ofPass (head : Node) {pass : Pass} (tagged : pass.current.tag = "section")
    (line : Directive) :
    (ofPass head pass).newParagraph line = (pass.newParagraph line).map (ofPass head) := by
  have destination : (ofPass head pass).destination = pass.destination := rfl
  have opened (current : Node) (container : Place) := modifyAt_spread head pass.finished current
    (·.appendChild (aligned line.alignment (.new () "p" []))) container
  by_cases heading : pass.destination = .head
  · have here : ((pass.current.closest? Pass.paragraphContainers []).getD []) = [] := by
      simp [Element.closest?]
      split <;> rfl
    have inSection := opened pass.current []
    rw [List.append_nil] at inSection
    simp only [newParagraph, Pass.newParagraph, heading, if_true, here, bind,
      Except.bind, pure, Except.pure, Except.map, ofPass, inSection]
    rfl
  · simp only [newParagraph, Pass.newParagraph, destination, heading, if_false, resolve_ofPass]
    cases resolved : Render.resolve pass.current pass.destination with
    | error cause => rfl
    | ok found =>
        obtain ⟨current, place⟩ := found
        have isContainer : current.isTagged Pass.paragraphContainers = true := by
          rw [Element.isTagged, tag_resolve resolved, tagged]
          rfl
        have nearest := closest?_spread head pass.finished isContainer place
        have home : (ofPass head pass).home = homeBehind pass.finished := rfl
        simp only [Except.map, bind, Except.bind, pure, Except.pure, home, nearest, opened]
        rfl

theorem redirect_ofPass (head : Node) (pass : Pass) (line : Directive) :
    (ofPass head pass).redirect line = (pass.redirect line).map (ofPass head) := by
  have unlinked : { ofPass head pass with link := none } =
      ofPass head { pass with link := none } := rfl
  simp only [redirect, Pass.redirect, unlinked]
  cases line.target with
  | missing => rfl
  | unknown name => rfl
  | known destination =>
      cases destination with
      | body => rfl
      | head => rfl
      | note =>
          simp only [openNote_ofPass]
          cases Pass.openNote { pass with link := none } <;> rfl
      | cell =>
          simp only [openCell_ofPass]
          cases Pass.openCell { pass with link := none } line.header <;> rfl

theorem insertIdx_append_length {Item : Type} (before after : List Item) (item : Item) :
    (before ++ after).insertIdx before.length item = before ++ item :: after := by
  induction before with
  | nil => rfl
  | cons first rest inductionHypothesis =>
      exact congrArg (first :: ·) inductionHypothesis

/-- Taking an element without tail out of the end of another leaves what was there. -/
theorem removeChild_appendChild {finished current : Node} (untailed : current.tail = none) :
    (finished.appendChild current).removeChild finished.children.length = finished := by
  have taken : (finished.children ++ [current]).eraseIdx finished.children.length =
      finished.children := by
    simp [List.eraseIdx_append_of_length_le]
  cases finished
  simp [Element.removeChild, Element.appendChild, untailed, taken]

theorem ruleBefore_spread {sheet : Sheet} {head kept current : Node}
    (page : sheet.page = spread head kept current) (home : sheet.home = homeBehind kept)
    (tagged : current.isTagged ["section"] = true) :
    sheet.ruleBefore =
      if kept.children.any (·.isTagged ["section"]) then
        { sheet with
          page := spread head (kept.appendChild (.new () "hr" [])) current
          home := homeBehind (kept.appendChild (.new () "hr" [])) }
      else sheet := by
  have body : (spread head kept current).at? bodyPlace = some (kept.appendChild current) := rfl
  have inserted : (kept.children ++ [current]).insertIdx kept.children.length (.new () "hr" []) =
      kept.children ++ [.new () "hr" []] ++ [current] := by
    rw [List.append_assoc]
    exact insertIdx_append_length kept.children [current] _
  have ruled : (spread head kept current).modifyAt
      (·.insertChild kept.children.length (.new () "hr" [])) bodyPlace =
        spread head (kept.appendChild (.new () "hr" [])) current := by
    rw [spread, modifyAt_bodyPlace, Element.insertChild]
    exact congrArg (fun children => assemble head { kept with children := children }) inserted
  have children : (kept.appendChild current).children = kept.children ++ [current] := rfl
  have last : (homeBehind kept).getLastD 0 = kept.children.length := rfl
  simp only [ruleBefore, page, body, Option.bind_some, children, home, last, ruled,
    List.findIdx?_append]
  cases first : kept.children.findIdx? (·.isTagged ["section"]) with
  | none =>
      have noSection : kept.children.any (·.isTagged ["section"]) = false := by
        simpa [List.findIdx?_eq_none_iff] using first
      simp [noSection, tagged, List.findIdx?_cons, homeBehind, bodyPlace]
  | some index =>
      obtain ⟨bound, isSection, -⟩ := List.findIdx?_eq_some_iff_getElem.mp first
      have someSection : kept.children.any (·.isTagged ["section"]) = true :=
        List.any_eq_true.mpr ⟨_, List.getElem_mem bound, isSection⟩
      have before : index ≠ kept.children.length := by omega
      simp [someSection, before, homeBehind, bodyPlace, Element.appendChild]

theorem dropVacant_ofPass (head : Node) {pass : Pass} (untailed : pass.current.tail = none)
    (current : Node) :
    (ofPass head pass).dropVacant.appendSection current =
      let kept :=
        if pass.current.hasContent then pass.finished.appendChild pass.current else pass.finished
      { ofPass head pass with
        page := spread head kept current
        home := homeBehind kept
        sectionNumber := pass.sectionNumber + 1 } := by
  have emptied : (spread head pass.finished pass.current).modifyAt
      (·.removeChild pass.finished.children.length) bodyPlace = assemble head pass.finished := by
    rw [spread, modifyAt_bodyPlace, removeChild_appendChild untailed]
  have last : (homeBehind pass.finished).getLastD 0 = pass.finished.children.length := rfl
  simp only [dropVacant, current?_ofPass, Option.map_some, Option.getD_some]
  cases pass.current.hasContent with
  | true => rfl
  | false =>
      simp only [Bool.false_eq_true, if_false, ofPass, last, emptied, appendSection,
        appendAt_bodyPlace]

theorem newSection_ofPass (head : Node) {pass : Pass} (untailed : pass.current.tail = none)
    (line : Directive) :
    (ofPass head pass).newSection line = ofPass head (pass.newSection line) := by
  have tagged : (aligned line.alignment emptySection).isTagged ["section"] = true := by
    obtain ⟨attributes, same⟩ := Draft.aligned_eq line.alignment emptySection
    rw [same]
    rfl
  simp only [newSection, Pass.newSection, dropVacant_ofPass head untailed]
  generalize (if pass.current.hasContent then pass.finished.appendChild pass.current
    else pass.finished) = kept
  rw [ruleBefore_spread rfl rfl tagged]
  cases line.breakBefore with
  | false => rfl
  | true =>
      cases kept.children.any (·.isTagged ["section"]) <;> rfl

theorem mapError_map {Cause Wider : Type} (rename : Cause → Wider) (change : Pass → Sheet)
    (outcome : Except Cause Pass) :
    (outcome.map change).mapError rename = (outcome.mapError rename).map change := by
  cases outcome <;> rfl

theorem obey_ofPass (head : Node) {pass : Pass} (tagged : pass.current.tag = "section")
    (untailed : pass.current.tail = none) (line : Directive) :
    (ofPass head pass).obey line = (pass.obey line).map (ofPass head) := by
  cases kind : line.kind with
  | newSection =>
      simp only [obey, Pass.obey, kind, newSection_ofPass head untailed, Except.map]
  | hint | blob =>
      simp only [obey, Pass.obey, kind]
      rfl
  | newParagraph =>
      simp only [obey, Pass.obey, Pass.obey.refuse, kind, newParagraph_ofPass head tagged,
        mapError_map]
  | link => simp only [obey, Pass.obey, Pass.obey.refuse, kind, newLink_ofPass, mapError_map]
  | anchor => simp only [obey, Pass.obey, Pass.obey.refuse, kind, newAnchor_ofPass, mapError_map]
  | image => simp only [obey, Pass.obey, Pass.obey.refuse, kind, newImage_ofPass, mapError_map]
  | table => simp only [obey, Pass.obey, kind, newTable_ofPass]
  | destination =>
      simp only [obey, Pass.obey, Pass.obey.refuse, kind, redirect_ofPass, mapError_map]

/-- A line does on the whole page what it does in a pass. -/
theorem step_ofPass (head : Node) {pass : Pass} (tagged : pass.current.tag = "section")
    (untailed : pass.current.tail = none) (line : Line) :
    (ofPass head pass).step line = (pass.step line).map (ofPass head) := by
  have ready : (if line.resets then (ofPass head pass).reset else ofPass head pass) =
      ofPass head (if line.resets then pass.reset else pass) := by
    split <;> rfl
  have current : (if line.resets then pass.reset else pass).current = pass.current := by
    split <;> rfl
  rw [← current] at tagged untailed
  simp only [step, Pass.step, ready]
  cases line with
  | directive line => exact obey_ofPass head tagged untailed line
  | run run => simp only [addRun_ofPass, mapError_map]
  | foreign shown => rfl

/-- Lines do on the whole page what they do in a pass. -/
theorem trace_ofPass {opening : Node} (head : Node) {draft : Draft} {pass : Pass}
    (bare : opening.children.any (·.isTagged ["section"]) = false)
    (depicts : Draft.Depicts opening draft pass) (sound : draft.Sound) (lines : List Line) :
    (ofPass head pass).trace lines =
      ((pass.trace lines).1.map (ofPass head), (pass.trace lines).2.map (ofPass head)) := by
  induction lines generalizing draft pass with
  | nil => rfl
  | cons line rest inductionHypothesis =>
      have tagged : pass.current.tag = "section" := by rw [depicts.current, Draft.tag_section]
      have untailed : pass.current.tail = none := by rw [depicts.current, Draft.tail_section]
      have taken := depicts.step bare sound line
      simp only [trace, Pass.trace, step_ofPass head tagged untailed]
      cases stepped : pass.step line with
      | error failure => rfl
      | ok next =>
          rw [stepped] at taken
          obtain ⟨nextDraft, drafted, depicted⟩ := taken.of_ok_state
          simp only [Except.map, inductionHypothesis depicted (sound.step drafted)]
          rfl

end Sheet

/-! ### What a line changes -/

/-- Whether a line opens a section: as such, or for a heading. -/
def Line.opensSection : Line → Bool
  | .directive line =>
      line.kind == .newSection || line.kind == .destination && line.target == .known .head
  | _ => false

/-- What a line may do to the closed part of a body and the current section behind it:
change what is in the section, put a section for a heading at the end, or open a new
section.  The section before a new one is dropped when it has no content, and a rule is
put between the two if it is asked for, provided that there are two. -/
inductive Changes : Line → List Node × Node → List Node × Node → Prop
  | inside {line : Line} (opensNone : line.opensSection = false) (closed : List Node)
      (current : Node) (children : List Node) :
      Changes line (closed, current) (closed, { current with children := children })
  | heading {line : Directive} (kind : line.kind = .destination)
      (target : line.target = .known .head) (closed : List Node) (current : Node) :
      Changes (.directive line) (closed, current) (closed ++ [current], emptySection)
  | newSection {line : Directive} (kind : line.kind = .newSection) (closed : List Node)
      (current : Node) {kept : List Node}
      (keeps : kept = if current.hasContent then closed ++ [current] else closed) :
      Changes (.directive line) (closed, current)
        (if line.breakBefore && kept.any (·.isTagged ["section"]) then
            kept ++ [.new () "hr" []]
          else kept,
          aligned line.alignment emptySection)

/-- The closed part of the body of a pass, and the current section. -/
def Render.Pass.scene (pass : Pass) : List Node × Node := (pass.finished.children, pass.current)

namespace Draft

theorem openCell_inside {draft next : Draft} {header : Bool}
    (opens : draft.openCell header = .ok next) :
    next.parts = draft.parts ∧ next.current.alignment = draft.current.alignment := by
  obtain ⟨index, -, rfl⟩ := openCell_ok opens
  exact ⟨rfl, rfl⟩

theorem redirect_inside {draft next : Draft} {line : Directive}
    (redirects : draft.redirect line = .ok next) (other : line.target ≠ .known .head) :
    next.parts = draft.parts ∧ next.current.alignment = draft.current.alignment := by
  cases redirects_of_ok redirects with
  | body | note => exact ⟨rfl, rfl⟩
  | cell target opens =>
      have inside := openCell_inside opens
      exact inside
  | head target => exact absurd target other

/-- A line that opens no section leaves the parts in front of the current section, and
the section its alignment. -/
theorem step_inside {draft next : Draft} {line : Line} (stepped : draft.step line = .ok next)
    (opensNone : line.opensSection = false) :
    next.parts = draft.parts ∧ next.current.alignment = draft.current.alignment := by
  obtain ⟨ready, isReady⟩ : ∃ ready, (if line.resets then draft.reset else draft) = ready :=
    ⟨_, rfl⟩
  have readied : ready.parts = draft.parts ∧
      ready.current.alignment = draft.current.alignment := by
    rw [← isReady]
    split <;> exact ⟨rfl, rfl⟩
  simp only [Draft.step, isReady] at stepped
  rw [← readied.1, ← readied.2]
  cases line with
  | foreign shown => cases stepped
  | run run =>
      cases stepped
      obtain ⟨change, edited, -⟩ := addRun_eq_edit ready run
      rw [edited]
      exact ⟨rfl, rfl⟩
  | directive line =>
      cases obeys_of_ok stepped with
      | newSection kind => simp [Line.opensSection, kind] at opensNone
      | newParagraph | hint | link | anchor | blob => exact ⟨rfl, rfl⟩
      | image kind shown =>
          obtain ⟨source, -, -, rfl⟩ := newImage_ok shown
          exact ⟨rfl, rfl⟩
      | table kind declared =>
          obtain ⟨columns, -, rfl⟩ := newTable_ok declared
          exact ⟨rfl, rfl⟩
      | destination kind redirects =>
          refine redirect_inside redirects ?_
          simpa [Line.opensSection, kind] using opensNone

end Draft

section

variable {opening : Node} {draft : Draft} {pass next : Pass}

theorem current_of_stays {nextDraft : Draft} (depicts : Draft.Depicts opening draft pass)
    (depicted : Draft.Depicts opening nextDraft next)
    (alignment : nextDraft.current.alignment = draft.current.alignment) :
    next.current = { pass.current with children := nextDraft.blocks.map Draft.Block.node } := by
  rw [depicts.current, depicted.current, Draft.Section.node, Draft.Section.node, alignment]
  rfl

theorem finished_of_stays {nextDraft : Draft} (depicts : Draft.Depicts opening draft pass)
    (depicted : Draft.Depicts opening nextDraft next) (parts : nextDraft.parts = draft.parts) :
    next.finished = pass.finished := by
  rw [depicts.finished, depicted.finished, parts]

theorem changes_inside (bare : opening.children.any (·.isTagged ["section"]) = false)
    (depicts : Draft.Depicts opening draft pass) (sound : draft.Sound) {line : Line}
    (stepped : pass.step line = .ok next) (opensNone : line.opensSection = false) :
    Changes line pass.scene next.scene := by
  have taken := depicts.step bare sound line
  rw [stepped] at taken
  obtain ⟨nextDraft, drafted, depicted⟩ := taken.of_ok_state
  obtain ⟨parts, alignment⟩ := Draft.step_inside drafted opensNone
  rw [Pass.scene, Pass.scene, finished_of_stays depicts depicted parts,
    current_of_stays depicts depicted alignment]
  exact .inside opensNone _ _ _

/-- What a pass is before a line, after the line has reset it, has the same page. -/
theorem scene_ready (pass : Pass) (line : Line) :
    (if line.resets then pass.reset else pass).scene = pass.scene := by
  split <;> rfl

theorem scene_newSection (pass : Pass) (line : Directive) :
    (pass.newSection line).scene =
      let kept :=
        if pass.current.hasContent then pass.finished.children ++ [pass.current]
        else pass.finished.children
      (if line.breakBefore && kept.any (·.isTagged ["section"]) then
          kept ++ [.new () "hr" []]
        else kept,
        aligned line.alignment emptySection) := by
  have kept : (if pass.current.hasContent then pass.finished.appendChild pass.current
      else pass.finished).children =
        if pass.current.hasContent then pass.finished.children ++ [pass.current]
        else pass.finished.children := by
    split <;> rfl
  have ruled (before : Node) (wanted : Bool) :
      (if wanted then before.appendChild (.new () "hr" []) else before).children =
        if wanted then before.children ++ [.new () "hr" []] else before.children := by
    cases wanted <;> rfl
  simp only [← kept, ← ruled]
  rfl

/-- A line that is taken changes the closed sections and the current one only as it
may. -/
theorem changes_step (bare : opening.children.any (·.isTagged ["section"]) = false)
    (depicts : Draft.Depicts opening draft pass) (sound : draft.Sound) {line : Line}
    (stepped : pass.step line = .ok next) : Changes line pass.scene next.scene := by
  cases opens : line.opensSection with
  | false => exact changes_inside bare depicts sound stepped opens
  | true =>
      cases line with
      | run run => cases opens
      | foreign shown => cases opens
      | directive line =>
          rw [← scene_ready pass (.directive line)]
          simp only [Pass.step] at stepped
          generalize (if (Line.directive line).resets then pass.reset else pass) = ready
            at stepped ⊢
          have kinds : line.kind = .newSection ∨
              line.kind = .destination ∧ line.target = .known .head := by
            simpa [Line.opensSection] using opens
          rcases kinds with kind | ⟨kind, target⟩
          · simp only [Pass.obey, kind] at stepped
            cases stepped
            rw [scene_newSection]
            exact .newSection kind _ _ rfl
          · simp only [Pass.obey, kind, Pass.obey.refuse, Pass.redirect, target] at stepped
            cases stepped
            exact .heading kind target _ _

end

/-! ### Whole runs -/

/-- States that follow one another are related by the lines between them. -/
def Along {State : Type} (Related : Line → State → State → Prop) :
    State → List Line → List State → Prop
  | _, _, [] => True
  | _, [], _ :: _ => False
  | state, line :: rest, next :: following =>
      Related line state next ∧ Along Related next rest following

theorem along_trace {opening : Node}
    (bare : opening.children.any (·.isTagged ["section"]) = false) {draft : Draft} {pass : Pass}
    (depicts : Draft.Depicts opening draft pass) (sound : draft.Sound) (lines : List Line) :
    Along (fun line before after => Changes line before.scene after.scene) pass lines
      (pass.trace lines).1 := by
  induction lines generalizing draft pass with
  | nil => trivial
  | cons line rest inductionHypothesis =>
      have taken := depicts.step bare sound line
      unfold Pass.trace
      cases stepped : pass.step line with
      | error failure => trivial
      | ok next =>
          rw [stepped] at taken
          obtain ⟨nextDraft, drafted, depicted⟩ := taken.of_ok_state
          exact ⟨changes_step bare depicts sound stepped,
            inductionHypothesis depicted (sound.step drafted)⟩

theorem prefix_ruled (kept : List Node) (wanted : Bool) :
    kept <+: if wanted then kept ++ [.new () "hr" []] else kept := by
  cases wanted with
  | true => exact List.prefix_append kept _
  | false => exact List.prefix_rfl

/-- No line takes anything away from what is closed, or puts anything in front. -/
theorem Changes.prefix_closed {line : Line} {before after : List Node × Node}
    (changes : Changes line before after) : before.1 <+: after.1 := by
  cases changes with
  | inside opensNone closed current children => exact List.prefix_rfl
  | heading kind target closed current => exact List.prefix_append _ _
  | @newSection line kind closed current kept keeps =>
      have grown : closed <+: kept := by
        rw [keeps]
        split
        · exact List.prefix_append _ _
        · exact List.prefix_rfl
      exact grown.trans (prefix_ruled kept _)

/-- What every line between two states that follow each other keeps growing, only
grows. -/
theorem pairwise_of_along {State Item : Type} {Related : Line → State → State → Prop}
    {shown : State → List Item}
    (grows : ∀ {line before after}, Related line before after → shown before <+: shown after)
    {state : State} {lines : List Line} {states : List State}
    (along : Along Related state lines states) :
    (state :: states).Pairwise fun earlier later => shown earlier <+: shown later := by
  induction states generalizing state lines with
  | nil => exact List.pairwise_singleton _ _
  | cons next following inductionHypothesis =>
      cases lines with
      | nil => exact along.elim
      | cons line rest =>
          have first := grows along.1
          have later := inductionHypothesis along.2
          refine List.Pairwise.cons ?_ later
          intro state member
          rcases List.mem_cons.mp member with rfl | behind
          · exact first
          · exact first.trans (List.rel_of_pairwise_cons later behind)

/-- What holds of every state that a draft stands for holds of all states of a pass. -/
theorem forall_trace {opening : Node}
    (bare : opening.children.any (·.isTagged ["section"]) = false) {Holds : Pass → Prop}
    (holds : ∀ {draft pass}, Draft.Depicts opening draft pass → Holds pass) {draft : Draft}
    {pass : Pass} (depicts : Draft.Depicts opening draft pass) (sound : draft.Sound)
    (lines : List Line) : ∀ state ∈ pass :: (pass.trace lines).1, Holds state := by
  induction lines generalizing draft pass with
  | nil => simpa [Pass.trace] using holds depicts
  | cons line rest inductionHypothesis =>
      have taken := depicts.step bare sound line
      unfold Pass.trace
      cases stepped : pass.step line with
      | error failure => simpa using holds depicts
      | ok next =>
          rw [stepped] at taken
          obtain ⟨nextDraft, drafted, depicted⟩ := taken.of_ok_state
          exact List.forall_mem_cons.mpr
            ⟨holds depicts, inductionHypothesis depicted (sound.step drafted)⟩

/-- A pass over some lines leaves closed sections alone, in a page with the given
head and the given body in front of the first line. -/
structure ClosesForGood (head opening : Node) (lines : List Line) : Prop where
  /-- The same lines make the same pages when nothing is set apart. -/
  onPage :
    (Sheet.start head opening).trace lines =
      (((Pass.start opening).trace lines).1.map (Sheet.ofPass head),
        ((Pass.start opening).trace lines).2.map (Sheet.ofPass head))
  /-- The current section always stands last in the body. -/
  last : ∀ pass ∈ Pass.start opening :: ((Pass.start opening).trace lines).1,
    pass.current.tag = "section" ∧
      (Sheet.ofPass head pass).home = [1, pass.finished.children.length] ∧
      (Sheet.ofPass head pass).page.children =
        [head, { opening with children := pass.finished.children ++ [pass.current] }]
  /-- Each line changes the current section, or the body behind it. -/
  changes :
    Along (fun line before after => Changes line before.scene after.scene)
      (Pass.start opening) lines ((Pass.start opening).trace lines).1
  /-- What stands in front of a later section is never changed again, nor moved. -/
  final :
    (Pass.start opening :: ((Pass.start opening).trace lines).1).Pairwise
      fun earlier later => earlier.finished.children <+: later.finished.children

theorem closesForGood (head : Node) {opening : Node}
    (bare : opening.children.any (·.isTagged ["section"]) = false) (lines : List Line) :
    ClosesForGood head opening lines where
  onPage := Sheet.trace_ofPass head bare (Draft.depicts_start opening) Draft.sound_start lines
  last := by
    refine forall_trace bare ?_ (Draft.depicts_start opening) Draft.sound_start lines
    intro draft pass depicts
    have tagged : pass.current.tag = "section" := by rw [depicts.current, Draft.tag_section]
    have opened : { opening with children := pass.finished.children ++ [pass.current] } =
        pass.finished.appendChild pass.current := by
      rw [depicts.finished]
      rfl
    exact ⟨tagged, rfl, by rw [opened]; rfl⟩
  changes := along_trace bare (Draft.depicts_start opening) Draft.sound_start lines
  final :=
    pairwise_of_along (fun changes => changes.prefix_closed)
      (along_trace bare (Draft.depicts_start opening) Draft.sound_start lines)

/-- Closed sections are final in the rendering pass of every document. -/
theorem renderTree_closes_for_good (options : Options) (document : Document) :
    ClosesForGood (Page.head options.stylesheets document) (emptyBody options document)
      document.lines :=
  closesForGood _ (Draft.bare_emptyBody options document) document.lines

end Folio
