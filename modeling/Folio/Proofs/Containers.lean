import Folio.Proofs.Ancestors
import Folio.Proofs.Closing

/-!
# The container of a new paragraph

A new paragraph is opened next to the one that content goes to: in the nearest container
on the way up to the top of the page.  In every state between two lines that way passes
only through what the current section holds.  So it ends at the latest note while content
goes to a note, at the latest cell while it goes to a cell, and at the current section
while it goes to the body.
-/

namespace Folio

open Markup Render

/-- The latest container for a destination, by its place in a tree in which the current
section stands at a home.  A heading has none. -/
def IsLatest (root : Node) (home : Place) : Destination → Place → Prop
  | .body, place => place = home
  | .head, _ => False
  | .note, place =>
      ∃ note, root.lastDescendant? (·.isTagged ["aside"]) = some (place, note)
  | .cell, place =>
      ∃ cell, root.lastDescendant? (·.isTagged ["th", "td"]) = some (place, cell)

/-! ### In the current section -/

namespace Draft

/-- Searching upwards from where content goes ends at the latest container. -/
theorem Sound.exists_container {draft : Draft} (sound : draft.Sound)
    (outside : draft.focus.destination ≠ .head) :
    ∃ current place container found,
      Render.resolve draft.current.node draft.focus.destination = .ok (current, place) ∧
        current.at? place = some found ∧
        current.closest? Pass.paragraphContainers place = some container ∧
        IsLatest current [] draft.focus.destination container := by
  obtain ⟨frame, items, after, opened, fits, resolved⟩ := sound.resolve_reach
  have reached : OpenAt (draft.withBlocks draft.reach.1).current.blocks draft.reach.2
      frame items after := opened
  cases focus : draft.focus.destination with
  | head => exact absurd focus outside
  | body =>
      obtain ⟨⟨alignment, rfl⟩, -⟩ := focus ▸ fits
      exact ⟨_, _, [], _, focus ▸ resolved, reached.at?, reached.container_none rfl, rfl⟩
  | note =>
      obtain ⟨⟨number, earlier, alignment, rfl⟩, grids⟩ := focus ▸ fits
      exact ⟨_, _, _, _, focus ▸ resolved, reached.at?, reached.container_some rfl, _,
        reached.lastDescendant?_note grids⟩
  | cell =>
      obtain ⟨⟨columns, rows, row, header, inner, rfl⟩, cellless⟩ := focus ▸ fits
      exact ⟨_, _, _, _, focus ▸ resolved, reached.at?, reached.container_some rfl, _,
        reached.lastDescendant?_cell cellless⟩

end Draft

/-! ### In the page -/

/-- What is last in the current section is last in the page. -/
theorem Sheet.lastDescendant?_spread (head finished : Node) {current found : Node}
    {tags : List String} {place : Place}
    (last : current.lastDescendant? (·.isTagged tags) = some (place, found)) :
    (spread head finished current).lastDescendant? (·.isTagged tags) =
      some (homeBehind finished ++ place, found) := by
  have inBody : (finished.appendChild current).lastDescendant? (·.isTagged tags) =
      some (finished.children.length :: place, found) :=
    Element.lastDescendant?_of_split rfl rfl (by simp)
      (Element.lastWithin?_of_lastDescendant? last)
  exact Element.lastDescendant?_of_split (children_spread head finished current) rfl (by simp)
    (Element.lastWithin?_of_lastDescendant? inBody)

theorem IsLatest.spread {current : Node} {destination : Destination} {container : Place}
    (latest : IsLatest current [] destination container) (head finished : Node) :
    IsLatest (Sheet.spread head finished current) (Sheet.homeBehind finished) destination
      (Sheet.homeBehind finished ++ container) := by
  cases destination with
  | body =>
      obtain rfl : container = [] := latest
      exact List.append_nil _
  | head => exact latest.elim
  | note =>
      obtain ⟨note, last⟩ := latest
      exact ⟨note, Sheet.lastDescendant?_spread head finished last⟩
  | cell =>
      obtain ⟨cell, last⟩ := latest
      exact ⟨cell, Sheet.lastDescendant?_spread head finished last⟩

/-- A page of a body with one more section, its elements told apart by numbers. -/
def Sheet.numbered (head finished current : Node) : Element Nat :=
  (Workbench.number 0 (spread head finished current)).1

/-- How a pass finds the container of a new paragraph: the section with the element that
content goes to, the places of that element and of the container in it, and the way from
the one to the other up the page. -/
structure OpensInside (head : Node) (pass : Pass) (current : Node) (place container : Place) :
    Prop where
  resolved : Render.resolve pass.current pass.destination = .ok (current, place)
  climbs :
    ∃ start found,
      (Sheet.numbered head pass.finished current).at?
          (Sheet.homeBehind pass.finished ++ place) = some start ∧
        (Sheet.numbered head pass.finished current).at?
          (Sheet.homeBehind pass.finished ++ container) = some found ∧
        ∀ result,
          (Sheet.numbered head pass.finished current).Climbs Pass.paragraphContainers start
            result ↔ result = some found
  latest :
    IsLatest (Sheet.spread head pass.finished current) (Sheet.homeBehind pass.finished)
      pass.destination (Sheet.homeBehind pass.finished ++ container)
  opened : ∀ line : Directive, line.kind = .newParagraph →
    pass.step (.directive line) =
      .ok { (if line.reset then pass.reset else pass) with
        current :=
          current.modifyAt (·.appendChild (aligned line.alignment (.new () "p" []))) container
        link := none }

/-- In a state that a sound draft stands for, a new paragraph finds its container. -/
theorem Draft.Depicts.exists_opensInside {opening : Node} {draft : Draft} {pass : Pass}
    (depicts : Draft.Depicts opening draft pass) (sound : draft.Sound)
    (outside : pass.destination ≠ .head) (head : Node) :
    ∃ current place container, OpensInside head pass current place container := by
  obtain ⟨current, place, container, found, resolved, lies, closest, latest⟩ :=
    sound.exists_container (depicts.destination ▸ outside)
  rw [← depicts.current, ← depicts.destination] at resolved
  rw [← depicts.destination] at latest
  have liesOnPage := (Sheet.at?_spread head pass.finished current place).trans lies
  have closestOnPage := Sheet.closest?_spread_of_some head pass.finished closest
  refine ⟨current, place, container, resolved,
    Workbench.climbs_number 0 liesOnPage closestOnPage, latest.spread head pass.finished,
    fun line isParagraph => ?_⟩
  -- Dropping link and tooltip first does not move the container.
  have opens (ready : Pass) (sameCurrent : ready.current = pass.current)
      (sameDestination : ready.destination = pass.destination) :
      ready.obey line =
        .ok { ready with
          current :=
            current.modifyAt (·.appendChild (aligned line.alignment (.new () "p" []))) container
          link := none } := by
    simp only [Pass.obey, isParagraph, Pass.newParagraph, sameDestination, sameCurrent,
      if_neg outside, resolved, bind, Except.bind, closest, Option.getD_some]
    rfl
  refine opens (if line.reset then pass.reset else pass) ?_ ?_ <;> split <;> rfl

/-! ### Nearest containers -/

/-- On a bench with different numbers, going up from an element towards a root ends, at
the nearest element with one of the tags, and the bench finds the same.  So it is with the
container of a new paragraph in every state of a rendering pass, unless the paragraph
belongs to a heading. -/
theorem closest_is_nearest :
    (∀ (bench : Workbench) (root number : Nat) (tags : List String) (top start : Element Nat),
      bench.marks.Nodup → bench.element root = .ok top → bench.element number = .ok start →
        ∃ nearest, (∀ result, top.Climbs tags start result ↔ result = nearest) ∧
          Workbench.IsNearest top start tags nearest ∧
          bench.closest root number tags = .ok (nearest.map Element.mark)) ∧
    (∀ (options : Options) (document : Document) (lines : List Line) (pass : Pass) (head : Node),
      (initialPass options document).run lines = .ok pass → pass.destination ≠ .head →
        ∃ current place container, OpensInside head pass current place container) := by
  refine ⟨?_, ?_⟩
  · intro bench root number tags top start distinct rootLies startLies
    exact Workbench.exists_nearest distinct rootLies startLies tags
  · intro options document lines pass head ran outside
    have agree := Draft.agree_initialPass options document lines
    rw [ran] at agree
    obtain ⟨draft, drafted, depicts⟩ := agree.of_ok_state
    exact depicts.exists_opensInside (Draft.sound_start.run drafted) outside head

/-- The nearest paragraph or note around some bold text, and the container of a new
paragraph after text was put into a note. -/
theorem closest_is_nearest_inNote :
    let bench : Workbench := .ofTree
      (⟨(), "aside", [], none, none, [⟨(), "p", [], none, none, [.new () "b" []]⟩]⟩ : Node)
    let paragraph : Element Nat := ⟨1, "p", [], none, none, [.new 2 "b" []]⟩
    let note : Element Nat := ⟨0, "aside", [], none, none, [paragraph]⟩
    let lines : List Line :=
      [.directive { Directive.plain .destination with target := .known .note },
        .run ⟨"x", .plain, false⟩]
    (bench.marks.Nodup ∧ bench.element 0 = .ok note ∧ bench.element 2 = .ok (.new 2 "b" []) ∧
        note.Climbs ["p", "aside"] (.new 2 "b" []) (some paragraph)) ∧
      ∃ pass, (initialPass Options.standard ⟨lines, [], true⟩).run lines = .ok pass ∧
        pass.destination = .note ∧ ∃ current place container,
          OpensInside (Page.head [] ⟨lines, [], true⟩) pass current place container := by
  intro bench paragraph note lines
  have distinct : bench.marks.Nodup := Workbench.nodup_marks_ofTree _
  obtain ⟨nearest, climbs, isNearest, -⟩ :=
    closest_is_nearest.1 bench 0 2 ["p", "aside"] note (.new 2 "b" []) distinct rfl rfl
  obtain ⟨pass, ran, destination⟩ :
      ∃ pass, (initialPass Options.standard ⟨lines, [], true⟩).run lines = .ok pass ∧
        pass.destination = .note := ⟨_, rfl, rfl⟩
  have inParagraph : nearest = some paragraph := isNearest.inside [0, 0] rfl
  refine ⟨⟨distinct, rfl, rfl, ?_⟩, pass, ran, destination, ?_⟩
  · exact (climbs (some paragraph)).mpr inParagraph.symm
  · exact closest_is_nearest.2 Options.standard ⟨lines, [], true⟩ lines pass _ ran
      (by simp [destination])

end Folio
