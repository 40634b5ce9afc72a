import Folio.Proofs.Filling
import Mathlib.Data.List.Induction
import Mathlib.Logic.Function.Basic

/-!
# One register for several sections

The tables of several sections can share one register.  Requests for the
sections may then come in any order, and other elements, tables among them, may
be put between the registered ones.  This file follows such a sequence of steps:
a section grows as it would alone, and the registered tables are laid out row by
row after every step.

A step is stated twice, as one change of the sections and the register, and as
the changes made in place, one at a time.  A step that fails must have failed
before the first of these changes.
-/

namespace Folio.Markup

/-! ### The last child with a tag -/

theorem modify_congr_at {Item : Type} {list : List Item} {index : Nat} {item : Item}
    (found : list[index]? = some item) {change other : Item → Item}
    (same : change item = other item) : list.modify index change = list.modify index other := by
  obtain ⟨before, after, rfl, rfl⟩ := split_of_getElem? found
  rw [modify_between, modify_between, same]

theorem Element.getElem?_of_lastChild? {Mark : Type} {accept : Element Mark → Bool}
    {element child : Element Mark} {index : Nat}
    (last : element.lastChild? accept = some (index, child)) :
    element.children[index]? = some child := by
  obtain ⟨entry, isLast, same⟩ := Option.map_eq_some_iff.mp last
  cases same
  exact List.mem_zipIdx_iff_getElem?.mp (List.mem_filter.mp (List.mem_of_getLast? isLast)).1

end Folio.Markup

namespace Folio.Table

open Markup

/-! ### Steps -/

/-- What is asked for in one section. -/
inductive Action where
  | declare (declared : Content)
  | addCell (header : Bool)
  /-- Put in a child that the register does not hear of. -/
  | append (foreign : Node)

/-- An action in one of so many sections. -/
structure Step (count : Nat) where
  place : Fin count
  action : Action

/-- Sections and the register for all of them. -/
structure Shared (count : Nat) where
  contents : Fin count → Node
  register : Register

/-- What a step answers: a failure, or the section with what was added. -/
abbrev Outcome := Except (Failure RenderError) Node

def Action.perform (action : Action) (register : Register) (sectionNumber : Nat)
    (current : Node) : Except (Failure RenderError) (Register × Node) :=
  match action with
  | .declare declared => Table.declare register sectionNumber current declared
  | .addCell header =>
      ((Table.addCell register sectionNumber current header).mapError .refused).map
        fun grown => (register, grown)
  | .append foreign => .ok (register, current.appendChild foreign)

/-- The steps in one section, as steps in the only section there is. -/
def stepsOn {count : Nat} (place : Fin count) (steps : List (Step count)) : List (Step 1) :=
  steps.filterMap fun step => if step.place = place then some ⟨0, step.action⟩ else none

/-! ### Tables in a section -/

/-- A section with an empty table at its end. -/
def withTable (current : Node) : Node := current.appendChild (.new () "table" [])

/-- A section with another cell in one of its tables. -/
def withCell (current : Node) (index columns : Nat) (header : Bool) : Node :=
  { current with
    children := current.children.modify index (layCell columns (newCell header)) }

/-- A child of a section is a table with so many columns, with its cells laid
out row by row. -/
def HoldsGrid (current : Node) (index columns : Nat) : Prop :=
  ∃ grid : Draft.Grid, grid.columns = columns ∧ grid.Laid ∧
    current.children[index]? = some grid.node

theorem HoldsGrid.appendChild {current : Node} {index columns : Nat}
    (holds : HoldsGrid current index columns) (child : Node) :
    HoldsGrid (current.appendChild child) index columns := by
  obtain ⟨grid, counted, laid, found⟩ := holds
  obtain ⟨bound, -⟩ := List.getElem?_eq_some_iff.mp found
  refine ⟨grid, counted, laid, ?_⟩
  rw [Element.appendChild, List.getElem?_append_left bound]
  exact found

theorem holdsGrid_withTable (current : Node) {columns : Nat} (positive : 0 < columns) :
    HoldsGrid (withTable current) current.children.length columns := by
  refine ⟨⟨columns, []⟩, rfl, ⟨positive, by simp [Draft.rowLengths, Draft.Grid.cellCount]⟩, ?_⟩
  rw [withTable, Element.appendChild, List.getElem?_concat_length]
  rfl

/-- A cell laid into one child keeps the tables, provided that the child has the
columns the cell is laid out for. -/
theorem HoldsGrid.withCell {current : Node} {index columns : Nat}
    (holds : HoldsGrid current index columns) {last counted : Nat}
    (agrees : last = index → counted = columns) (header : Bool) :
    HoldsGrid (withCell current last counted header) index columns := by
  obtain ⟨grid, rfl, laid, found⟩ := holds
  by_cases here : last = index
  · refine ⟨grid.addCell header, Draft.columns_addCell header grid, laid.addCell header, ?_⟩
    rw [Table.withCell, List.getElem?_modify, found, agrees here, ← Draft.layCell_grid]
    simp [here]
  · refine ⟨grid, rfl, laid, ?_⟩
    rw [Table.withCell, List.getElem?_modify, found]
    simp [here]

namespace Shared

variable {count : Nat}

def start (sections : Fin count → Node) : Shared count := ⟨sections, .empty⟩

def put (shared : Shared count) (place : Fin count) (grown : Node) : Shared count :=
  { shared with contents := Function.update shared.contents place grown }

def record (shared : Shared count) (place : Fin count) (index columns : Nat) : Shared count :=
  { shared with register := ⟨(⟨place, index⟩, columns) :: shared.register.entries⟩ }

def take (shared : Shared count) (step : Step count) : Outcome × Shared count :=
  match step.action.perform shared.register step.place (shared.contents step.place) with
  | .error failure => (.error failure, shared)
  | .ok (register, grown) => (.ok grown, { shared.put step.place grown with register })

def after (shared : Shared count) (steps : List (Step count)) : Shared count :=
  steps.foldl (fun shared step => (shared.take step).2) shared

/-- What some steps lead to, from sections with no table registered. -/
def reached (sections : Fin count → Node) (steps : List (Step count)) : Shared count :=
  (start sections).after steps

/-- The outcomes of those steps that concern one section. -/
def outcomesOn (place : Fin count) : Shared count → List (Step count) → List Outcome
  | _, [] => []
  | shared, step :: rest =>
      if step.place = place then
        (shared.take step).1 :: (shared.take step).2.outcomesOn place rest
      else (shared.take step).2.outcomesOn place rest

/-- The column count the register has for a child of a section. -/
def columns? (shared : Shared count) (place : Fin count) (index : Nat) : Option Nat :=
  shared.register.columns? ⟨place, index⟩

/-- The last table of a section by its index, with the table itself and its
column count, if that table is registered. -/
def lastOpen? (shared : Shared count) (place : Fin count) : Option (Nat × Node × Nat) := do
  let (index, table) ← (shared.contents place).lastChild? (·.isTagged ["table"])
  let columns ← shared.columns? place index
  return (index, table, columns)

@[simp]
theorem contents_put_self (shared : Shared count) (place : Fin count) (grown : Node) :
    (shared.put place grown).contents place = grown := by
  simp only [put, Function.update_self]

theorem contents_put_of_ne (shared : Shared count) {place other : Fin count}
    (ne : other ≠ place) (grown : Node) :
    (shared.put place grown).contents other = shared.contents other := by
  simp only [put, Function.update_of_ne ne]

@[simp]
theorem put_put (shared : Shared count) (place : Fin count) (first second : Node) :
    (shared.put place first).put place second = shared.put place second := by
  simp [put]

@[simp]
theorem columns?_put (shared : Shared count) (place other : Fin count) (grown : Node)
    (index : Nat) : (shared.put place grown).columns? other index = shared.columns? other index :=
  rfl

@[simp]
theorem contents_record (shared : Shared count) (place : Fin count) (index columns : Nat) :
    (shared.record place index columns).contents = shared.contents :=
  rfl

theorem columns?_record (shared : Shared count) (place other : Fin count)
    (index position columns : Nat) :
    (shared.record place index columns).columns? other position =
      if other = place ∧ position = index then some columns
      else shared.columns? other position := by
  rw [columns?, record, Register.columns?, List.lookup_cons]
  by_cases same : other = place ∧ position = index
  · simp [same]
  · have differ : (⟨other, position⟩ : Position) ≠ ⟨place, index⟩ := by
      intro equal
      cases Position.mk.inj equal with
      | intro place index => exact same ⟨Fin.ext place, index⟩
    rw [beq_false_of_ne differ, if_neg same]
    rfl

/-! ### What a step does -/

theorem take_declare (shared : Shared count) (place : Fin count) (declared : Content) :
    shared.take ⟨place, .declare declared⟩ =
      match columnCount declared with
      | .error failure => (.error failure, shared)
      | .ok columns =>
          (.ok (withTable (shared.contents place)),
            (shared.put place (withTable (shared.contents place))).record place
              (shared.contents place).children.length columns) := by
  simp only [take, Action.perform, declare]
  cases columnCount declared with
  | error failure => rfl
  | ok columns => rfl

theorem take_addCell (shared : Shared count) (place : Fin count) (header : Bool) :
    shared.take ⟨place, .addCell header⟩ =
      match shared.lastOpen? place with
      | none => (.error (.refused .noTable), shared)
      | some (index, _, columns) =>
          (.ok (withCell (shared.contents place) index columns header),
            shared.put place (withCell (shared.contents place) index columns header)) := by
  simp only [take, Action.perform, Table.addCell, lastOpen?, columns?]
  cases (shared.contents place).lastChild? (·.isTagged ["table"]) with
  | none => rfl
  | some found =>
      simp only [Option.bind_eq_bind, Option.bind_some]
      cases shared.register.columns? ⟨place, found.1⟩ <;> rfl

theorem take_append (shared : Shared count) (place : Fin count) (foreign : Node) :
    shared.take ⟨place, .append foreign⟩ =
      (.ok ((shared.contents place).appendChild foreign),
        shared.put place ((shared.contents place).appendChild foreign)) :=
  rfl

theorem lastOpen?_eq_some {shared : Shared count} {place : Fin count} {index columns : Nat}
    {table : Node} (last : shared.lastOpen? place = some (index, table, columns)) :
    (shared.contents place).children[index]? = some table ∧
      shared.columns? place index = some columns := by
  obtain ⟨⟨found, child⟩, isLast, registered⟩ := Option.bind_eq_some_iff.mp last
  obtain ⟨counted, isCounted, same⟩ := Option.bind_eq_some_iff.mp registered
  cases same
  exact ⟨Element.getElem?_of_lastChild? isLast, isCounted⟩

theorem lastOpen?_eq_none_iff {shared : Shared count} {place : Fin count} :
    shared.lastOpen? place = none ↔
      (shared.contents place).lastChild? (·.isTagged ["table"]) = none ∨
        ∃ index table,
          (shared.contents place).lastChild? (·.isTagged ["table"]) = some (index, table) ∧
            shared.columns? place index = none := by
  unfold lastOpen?
  cases (shared.contents place).lastChild? (·.isTagged ["table"]) with
  | none => simp
  | some found =>
      obtain ⟨index, table⟩ := found
      cases registered : shared.columns? place index <;> simp [registered]

/-- A step that fails changes nothing. -/
theorem take_error {shared : Shared count} {step : Step count} {failure : Failure RenderError}
    (failed : (shared.take step).1 = .error failure) : (shared.take step).2 = shared := by
  unfold take at failed ⊢
  split
  · rfl
  · rename_i performed
    rw [performed] at failed
    cases failed

/-- A step leaves the other sections alone. -/
theorem take_other (shared : Shared count) (step : Step count) {other : Fin count}
    (ne : step.place ≠ other) :
    (shared.take step).2.contents other = shared.contents other ∧
      (shared.take step).2.columns? other = shared.columns? other := by
  have apart (grown : Node) : (shared.put step.place grown).contents other =
      shared.contents other :=
    shared.contents_put_of_ne ne.symm grown
  obtain ⟨place, action⟩ := step
  cases action with
  | declare declared =>
      rw [take_declare]
      split
      · exact ⟨rfl, rfl⟩
      · refine ⟨apart _, funext fun index => ?_⟩
        rw [columns?_record, if_neg fun same => ne same.1.symm, columns?_put]
  | addCell header =>
      rw [take_addCell]
      split
      · exact ⟨rfl, rfl⟩
      · exact ⟨apart _, rfl⟩
  | append foreign => exact ⟨apart _, rfl⟩

/-! ### Sections apart -/

/-- What the register and the sections hold for one section is what they hold
for the only section of another register. -/
structure Matches (place : Fin count) (shared : Shared count) (alone : Shared 1) : Prop where
  contents : shared.contents place = alone.contents 0
  columns : shared.columns? place = alone.columns? 0

theorem Matches.lastOpen? {place : Fin count} {shared : Shared count} {alone : Shared 1}
    (alike : Matches place shared alone) : shared.lastOpen? place = alone.lastOpen? 0 := by
  rw [Shared.lastOpen?, Shared.lastOpen?, alike.contents, alike.columns]

theorem Matches.put {place : Fin count} {shared : Shared count} {alone : Shared 1}
    (alike : Matches place shared alone) (grown : Node) :
    Matches place (shared.put place grown) (alone.put 0 grown) :=
  ⟨by rw [contents_put_self, contents_put_self], alike.columns⟩

/-- The same action has the same outcome in a section alone, and keeps the
section what it is there. -/
theorem Matches.take {place : Fin count} {shared : Shared count} {alone : Shared 1}
    (alike : Matches place shared alone) (action : Action) :
    (shared.take ⟨place, action⟩).1 = (alone.take ⟨0, action⟩).1 ∧
      Matches place (shared.take ⟨place, action⟩).2 (alone.take ⟨0, action⟩).2 := by
  cases action with
  | declare declared =>
      rw [take_declare, take_declare, alike.contents]
      cases columnCount declared with
      | error failure => exact ⟨rfl, alike⟩
      | ok columns =>
          refine ⟨rfl, (alike.put _).contents, funext fun index => ?_⟩
          simp [columns?_record, alike.columns]
  | addCell header =>
      rw [take_addCell, take_addCell, alike.lastOpen?, alike.contents]
      cases alone.lastOpen? 0 with
      | none => exact ⟨rfl, alike⟩
      | some found => exact ⟨rfl, alike.put _⟩
  | append foreign =>
      rw [take_append, take_append, alike.contents]
      exact ⟨rfl, alike.put _⟩

theorem Matches.after {place : Fin count} {shared : Shared count} {alone : Shared 1}
    (alike : Matches place shared alone) (steps : List (Step count)) :
    Matches place (shared.after steps) (alone.after (stepsOn place steps)) ∧
      shared.outcomesOn place steps = alone.outcomesOn 0 (stepsOn place steps) := by
  induction steps generalizing shared alone with
  | nil => exact ⟨alike, rfl⟩
  | cons step rest inductionHypothesis =>
      by_cases here : step.place = place
      · obtain ⟨place, action⟩ := step
        cases here
        obtain ⟨outcome, next⟩ := alike.take action
        obtain ⟨ends, outcomes⟩ := inductionHypothesis next
        simp only [stepsOn, List.filterMap_cons, if_true, outcomesOn, outcome]
        exact ⟨ends, congrArg _ outcomes⟩
      · obtain ⟨contents, columns⟩ := shared.take_other step here
        obtain ⟨ends, outcomes⟩ := inductionHypothesis
          (⟨contents.trans alike.contents, columns.trans alike.columns⟩ :
            Matches place (shared.take step).2 alone)
        simp only [stepsOn, List.filterMap_cons, here, if_false, outcomesOn]
        exact ⟨ends, outcomes⟩

/-! ### Registered tables -/

/-- Every table in the register stands where the register says. -/
def Tidy (shared : Shared count) : Prop :=
  ∀ place index columns, shared.columns? place index = some columns →
    HoldsGrid (shared.contents place) index columns

theorem tidy_start (sections : Fin count → Node) : (start sections).Tidy := by
  intro place index columns registered
  cases registered

theorem Tidy.put {shared : Shared count} (tidy : shared.Tidy) {place : Fin count} {grown : Node}
    (keeps : ∀ index columns, shared.columns? place index = some columns →
      HoldsGrid grown index columns) : (shared.put place grown).Tidy := by
  intro other index columns registered
  by_cases same : other = place
  · subst same
    rw [contents_put_self]
    exact keeps index columns registered
  · rw [contents_put_of_ne shared same]
    exact tidy other index columns registered

theorem Tidy.putAppended {shared : Shared count} (tidy : shared.Tidy) (place : Fin count)
    (child : Node) : (shared.put place ((shared.contents place).appendChild child)).Tidy :=
  tidy.put fun index columns registered => (tidy place index columns registered).appendChild child

theorem Tidy.take {shared : Shared count} (tidy : shared.Tidy) (step : Step count) :
    (shared.take step).2.Tidy := by
  obtain ⟨place, action⟩ := step
  cases action with
  | declare declared =>
      rw [take_declare]
      split
      · exact tidy
      · rename_i columns counted
        intro other index found registered
        rw [columns?_record] at registered
        split at registered
        · rename_i same
          obtain ⟨rfl, rfl⟩ := same
          cases registered
          rw [contents_record, contents_put_self]
          exact holdsGrid_withTable _ (Draft.columnCount_positive counted)
        · exact tidy.putAppended place _ other index found registered
  | addCell header =>
      rw [take_addCell]
      split
      · exact tidy
      · rename_i last table columns opened
        obtain ⟨-, isOpen⟩ := lastOpen?_eq_some opened
        refine tidy.put fun index counted registered => ?_
        refine (tidy place index counted registered).withCell (fun here => ?_) header
        rw [← here, isOpen] at registered
        exact Option.some.inj registered
  | append foreign => exact tidy.putAppended place foreign

theorem Tidy.after {shared : Shared count} (tidy : shared.Tidy) (steps : List (Step count)) :
    (shared.after steps).Tidy := by
  induction steps generalizing shared with
  | nil => exact tidy
  | cons step rest inductionHypothesis => exact inductionHypothesis (tidy.take step)

theorem tidy_reached (sections : Fin count → Node) (steps : List (Step count)) :
    (reached sections steps).Tidy :=
  (tidy_start sections).after steps

/-- A step opens a table with so many columns as a child of a section. -/
def Opens (shared : Shared count) (step : Step count) (place : Fin count)
    (index columns : Nat) : Prop :=
  ∃ declared, step = ⟨place, .declare declared⟩ ∧ columnCount declared = .ok columns ∧
    index = (shared.contents place).children.length

/-- Nothing is registered for the child that is to come next. -/
theorem Tidy.columns?_length {shared : Shared count} (tidy : shared.Tidy) (place : Fin count) :
    shared.columns? place (shared.contents place).children.length = none := by
  rw [Option.eq_none_iff_forall_not_mem]
  intro columns registered
  obtain ⟨grid, -, -, found⟩ := tidy _ _ columns registered
  rw [List.getElem?_eq_none (Nat.le_refl _)] at found
  cases found

/-- The register after a step holds what it held, and the table the step
opened. -/
theorem Tidy.columns?_take {shared : Shared count} (tidy : shared.Tidy) (step : Step count)
    (place : Fin count) (index columns : Nat) :
    (shared.take step).2.columns? place index = some columns ↔
      shared.columns? place index = some columns ∨ shared.Opens step place index columns := by
  obtain ⟨stepPlace, action⟩ := step
  cases action with
  | declare declared =>
      rw [take_declare]
      cases counted : columnCount declared with
      | error failure =>
          refine ⟨Or.inl, Or.rec id ?_⟩
          rintro ⟨other, same, isCounted, -⟩
          cases same
          rw [counted] at isCounted
          cases isCounted
      | ok found =>
          rw [columns?_record]
          by_cases here : place = stepPlace ∧ index = (shared.contents stepPlace).children.length
          · obtain ⟨rfl, rfl⟩ := here
            simp [tidy.columns?_length, Opens, counted]
          · rw [if_neg here]
            refine ⟨Or.inl, Or.rec id ?_⟩
            rintro ⟨other, same, -, position⟩
            cases same
            exact absurd ⟨rfl, position⟩ here
  | addCell header =>
      rw [take_addCell]
      split <;> simp [Opens]
  | append foreign => simp [take_append, Opens]

theorem reached_concat (sections : Fin count → Node) (steps : List (Step count))
    (step : Step count) :
    reached sections (steps ++ [step]) = ((reached sections steps).take step).2 := by
  rw [reached, after, List.foldl_append]
  rfl

/-- A step among some opened a table with so many columns as a child of a
section. -/
def Opened (sections : Fin count → Node) (steps : List (Step count)) (place : Fin count)
    (index columns : Nat) : Prop :=
  ∃ before step following, steps = before ++ step :: following ∧
    (reached sections before).Opens step place index columns

theorem opened_concat (sections : Fin count → Node) (steps : List (Step count))
    (step : Step count) (place : Fin count) (index columns : Nat) :
    Opened sections (steps ++ [step]) place index columns ↔
      Opened sections steps place index columns ∨
        (reached sections steps).Opens step place index columns := by
  constructor
  · rintro ⟨before, opening, following, split, opens⟩
    rcases List.eq_nil_or_concat following with rfl | ⟨earlier, last, rfl⟩
    · obtain ⟨rfl, isStep⟩ := List.append_inj' split rfl
      rw [List.head_eq_of_cons_eq isStep]
      exact .inr opens
    · have same : steps ++ [step] = (before ++ opening :: earlier) ++ [last] := by
        simpa using split
      exact .inl ⟨before, opening, earlier, (List.append_inj' same rfl).1, opens⟩
  · rintro (⟨before, opening, following, rfl, opens⟩ | opens)
    · exact ⟨before, opening, following ++ [step], by simp, opens⟩
    · exact ⟨steps, step, [], rfl, opens⟩

/-- The register holds the tables that were opened, and no others. -/
theorem columns?_reached (sections : Fin count → Node) (steps : List (Step count))
    (place : Fin count) (index columns : Nat) :
    (reached sections steps).columns? place index = some columns ↔
      Opened sections steps place index columns := by
  induction steps using List.reverseRecOn with
  | nil =>
      constructor
      · intro registered
        cases registered
      · rintro ⟨before, opening, following, split, -⟩
        simp at split
  | append_singleton steps step inductionHypothesis =>
      rw [reached_concat, (tidy_reached sections steps).columns?_take, inductionHypothesis,
        opened_concat]

end Shared

/-! ### Filled rows -/

/-- A table whose rows hold cells only and are full, but for the last row. -/
structure IsFilled (columns : Nat) (table : Node) : Prop where
  tag : table.tag = "table"
  rows : ∀ row ∈ table.children,
    row.tag = "tr" ∧ ∀ cell ∈ row.children, cell.isTagged cellTags = true
  full : ∀ row ∈ table.children.dropLast, row.children.length = columns
  last : ∀ row, table.children.getLast? = some row →
    1 ≤ row.children.length ∧ row.children.length ≤ columns

theorem le_of_mem_rowLengths {columns count length : Nat} (positive : 0 < columns)
    (member : length ∈ Draft.rowLengths columns count) : length ≤ columns := by
  rcases List.mem_append.mp member with full | last
  · exact Nat.le_of_eq (List.eq_of_mem_replicate full)
  · split at last
    · cases last
    · rw [List.mem_singleton.mp last]
      exact Nat.le_of_lt (Nat.mod_lt count positive)

theorem isFilled_of_laid {grid : Draft.Grid} (laid : grid.Laid) :
    IsFilled grid.columns grid.node where
  tag := rfl
  rows row member := by
    obtain ⟨cells, -, rfl⟩ := List.mem_map.mp member
    refine ⟨rfl, fun cell held => ?_⟩
    obtain ⟨kept, -, rfl⟩ := List.mem_map.mp held
    cases header : kept.header <;> simp [Element.isTagged, cellTags, header]
  full row member := by
    have member : row ∈ (grid.rows.map Draft.rowNode).dropLast := member
    rw [← List.map_dropLast] at member
    obtain ⟨cells, held, rfl⟩ := List.mem_map.mp member
    have length : cells.length ∈ (grid.rows.map List.length).dropLast := by
      rw [← List.map_dropLast]
      exact List.mem_map_of_mem held
    rw [laid.lengths] at length
    simpa [Draft.rowNode] using Draft.eq_of_mem_dropLast_rowLengths length
  last row isLast := by
    obtain ⟨cells, held, rfl⟩ := List.mem_map.mp (List.mem_of_getLast? isLast)
    have length : cells.length ∈ Draft.rowLengths grid.columns grid.cellCount := by
      rw [← laid.lengths]
      exact List.mem_map_of_mem held
    have positive := Draft.rowLengths_positive laid.positive length
    have bounded := le_of_mem_rowLengths laid.positive length
    simpa [Draft.rowNode] using ⟨positive, bounded⟩

/-! ### Steps in place -/

section

variable {count : Nat}

/-- Work on sections and register that keeps what was done before it fails. -/
abbrev Handling (count : Nat) := ExceptT (Failure RenderError) (StateM (Shared count))

/-- Put a child at the end of the element at a place inside a section. -/
def appendTo (place : Fin count) (inside : Place) (child : Node) : Handling count Unit :=
  modify fun shared =>
    shared.put place ((shared.contents place).modifyAt (·.appendChild child) inside)

/-- The row that takes the next cell, if one of the rows so far does. -/
def openRow? (columns : Nat) (table : Node) : Option Nat :=
  match table.lastChild? (·.isTagged ["tr"]) with
  | some (row, _) => if cellCount table % columns = 0 then none else some row
  | none => none

/-- The index of the row that takes the next cell of a table.  A row that is
missing is put at the end of the table. -/
def reachRow (place : Fin count) (index columns : Nat) (table : Node) : Handling count Nat :=
  match openRow? columns table with
  | some row => pure row
  | none => do
      appendTo place [index] (.new () "tr" [])
      return table.children.length

def declareInPlace (place : Fin count) (declared : Content) : Handling count Unit := do
  let columns ← liftExcept (columnCount declared)
  let index := ((← get).contents place).children.length
  appendTo place [] (.new () "table" [])
  modify (·.record place index columns)

def addCellInPlace (place : Fin count) (header : Bool) : Handling count Unit := do
  match (← get).lastOpen? place with
  | none => throw (.refused .noTable)
  | some (index, table, columns) =>
      let row ← reachRow place index columns table
      appendTo place [index, row] (newCell header)

def Action.inPlace (place : Fin count) : Action → Handling count Unit
  | .declare declared => declareInPlace place declared
  | .addCell header => addCellInPlace place header
  | .append foreign => appendTo place [] foreign

def Step.inPlace (step : Step count) : Handling count Node := do
  step.action.inPlace step.place
  return (← get).contents step.place

theorem run_bind_of_ok {Result Next : Type} {first : Handling count Result}
    {rest : Result → Handling count Next} {shared changed : Shared count} {result : Result}
    (ran : first.run.run shared = (.ok result, changed)) :
    (first >>= rest).run.run shared = (rest result).run.run changed := by
  rw [ExceptT.run_bind, StateT.run_bind, ran]
  rfl

theorem run_bind_of_error {Result Next : Type} {first : Handling count Result}
    {rest : Result → Handling count Next} {shared changed : Shared count}
    {failure : Failure RenderError} (ran : first.run.run shared = (.error failure, changed)) :
    (first >>= rest).run.run shared = (.error failure, changed) := by
  rw [ExceptT.run_bind, StateT.run_bind, ran]
  rfl

theorem run_appendTo (shared : Shared count) (place : Fin count) (inside : Place)
    (child : Node) :
    (appendTo place inside child).run.run shared =
      (.ok (),
        shared.put place ((shared.contents place).modifyAt (·.appendChild child) inside)) :=
  rfl

theorem run_get (shared : Shared count) :
    (get : Handling count (Shared count)).run.run shared = (.ok shared, shared) :=
  rfl

theorem run_inPlace_of_ok {shared changed : Shared count} {place : Fin count} (action : Action)
    (ran : (action.inPlace place).run.run shared = (.ok (), changed)) :
    (Step.inPlace ⟨place, action⟩).run.run shared =
      (.ok (changed.contents place), changed) := by
  rw [Step.inPlace, run_bind_of_ok ran]
  rfl

theorem run_declareInPlace (shared : Shared count) (place : Fin count) {declared : Content}
    {columns : Nat} (counted : columnCount declared = .ok columns) :
    (declareInPlace place declared).run.run shared =
      (.ok (), (shared.put place (withTable (shared.contents place))).record place
        (shared.contents place).children.length columns) := by
  rw [declareInPlace, counted]
  rfl

/-- A cell goes into the open row, or into a new one when no row is open. -/
theorem layCell_eq (columns : Nat) (cell table : Node) :
    layCell columns cell table =
      match openRow? columns table with
      | some row => table.modifyAt (·.appendChild cell) [row]
      | none => table.appendChild (layCell.newRow cell) := by
  simp only [layCell, openRow?]
  cases table.lastChild? (·.isTagged ["tr"]) with
  | none => rfl
  | some found =>
      by_cases full : cellCount table % columns = 0
      · simp only [full, if_true]
      · simp only [full, if_false]
        rfl

theorem appendChild_newRow (cell table : Node) :
    (table.appendChild (.new () "tr" [])).modifyAt (·.appendChild cell)
        [table.children.length] = table.appendChild (layCell.newRow cell) := by
  simp [Element.appendChild, Element.modifyAt, layCell.newRow, modify_between]

/-- A row reached and a cell put into it: the cell is laid into the table. -/
theorem run_reachRow {shared : Shared count} {place : Fin count} {index columns : Nat}
    {table : Node} (found : (shared.contents place).children[index]? = some table)
    (header : Bool) :
    (do
        let row ← reachRow place index columns table
        appendTo place [index, row] (newCell header) : Handling count Unit).run.run shared =
      (.ok (), shared.put place (withCell (shared.contents place) index columns header)) := by
  cases opened : openRow? columns table with
  | some row =>
      have reached : (reachRow place index columns table).run.run shared =
          (.ok row, shared) := by
        rw [reachRow, opened]
        rfl
      have laid : layCell columns (newCell header) table =
          table.modifyAt (·.appendChild (newCell header)) [row] := by
        rw [layCell_eq, opened]
      rw [run_bind_of_ok reached, run_appendTo, Element.modifyAt, withCell,
        modify_congr_at found laid]
  | none =>
      have reached : (reachRow place index columns table).run.run shared =
          (.ok table.children.length,
            shared.put place ((shared.contents place).modifyAt
              (·.appendChild (.new () "tr" [])) [index])) := by
        rw [reachRow, opened]
        rfl
      have laid : layCell columns (newCell header) table =
          table.appendChild (layCell.newRow (newCell header)) := by
        rw [layCell_eq, opened]
      obtain ⟨before, after, split, position⟩ := split_of_getElem? found
      rw [run_bind_of_ok reached, run_appendTo, Shared.contents_put_self, Shared.put_put,
        Element.modifyAt_of_split split position]
      simp only [Element.modifyAt, withCell]
      rw [split, ← position, modify_between, modify_between, laid, ← appendChild_newRow]
      rfl

theorem run_addCellInPlace {shared : Shared count} {place : Fin count} {index columns : Nat}
    {table : Node} (opened : shared.lastOpen? place = some (index, table, columns))
    (header : Bool) :
    (addCellInPlace place header).run.run shared =
      (.ok (), shared.put place (withCell (shared.contents place) index columns header)) := by
  rw [addCellInPlace, run_bind_of_ok (run_get shared), opened]
  exact run_reachRow (Shared.lastOpen?_eq_some opened).1 header

/-- Done in place, a step changes what it changes at once, and answers the
same. -/
theorem run_inPlace (shared : Shared count) (step : Step count) :
    step.inPlace.run.run shared = shared.take step := by
  obtain ⟨place, action⟩ := step
  cases action with
  | declare declared =>
      rw [Shared.take_declare]
      cases counted : columnCount declared with
      | error failure =>
          have failed : (declareInPlace place declared).run.run shared =
              (.error failure, shared) := by
            rw [declareInPlace, counted]
            rfl
          exact run_bind_of_error failed
      | ok columns =>
          rw [run_inPlace_of_ok (.declare declared) (run_declareInPlace shared place counted)]
          simp
  | addCell header =>
      rw [Shared.take_addCell]
      cases last : shared.lastOpen? place with
      | none =>
          have failed : (addCellInPlace place header).run.run shared =
              (.error (.refused .noTable), shared) := by
            rw [addCellInPlace, run_bind_of_ok (run_get shared), last]
            rfl
          exact run_bind_of_error failed
      | some opened =>
          rw [run_inPlace_of_ok (.addCell header) (run_addCellInPlace last header)]
          simp
  | append foreign =>
      rw [run_inPlace_of_ok (.append foreign) (run_appendTo shared place [] foreign)]
      simp [Shared.take_append, Element.modifyAt]

/-! ### Sections that share a register -/

/-- Whatever steps are taken in whatever sections, with one register for all.
A section becomes what its own steps alone make of it, with the same outcomes.
A step done in place is the step, and leaves everything as it was when it
fails.  The tables opened so far are filled row by row.  A cell is refused just
when its section has no table or the last one there was not opened by a step. -/
theorem sections_stay_apart (sections : Fin count → Node) (steps : List (Step count)) :
    (∀ place,
      (Shared.reached sections steps).contents place =
          (Shared.reached (fun _ => sections place) (stepsOn place steps)).contents 0 ∧
        (Shared.start sections).outcomesOn place steps =
          (Shared.start fun _ => sections place).outcomesOn 0 (stepsOn place steps)) ∧
    (∀ step : Step count,
      step.inPlace.run.run (Shared.reached sections steps) =
          (Shared.reached sections steps).take step ∧
        ∀ failure, ((Shared.reached sections steps).take step).1 = .error failure →
          ((Shared.reached sections steps).take step).2 = Shared.reached sections steps) ∧
    (∀ place index columns, Shared.Opened sections steps place index columns →
      ∃ table, ((Shared.reached sections steps).contents place).children[index]? = some table ∧
        IsFilled columns table) ∧
    ∀ place header,
      (∃ failure, ((Shared.reached sections steps).take ⟨place, .addCell header⟩).1 =
          .error failure) ↔
        ((Shared.reached sections steps).contents place).lastChild? (·.isTagged ["table"]) = none ∨
          ∃ index table,
            ((Shared.reached sections steps).contents place).lastChild? (·.isTagged ["table"]) =
                some (index, table) ∧
              ∀ columns, ¬ Shared.Opened sections steps place index columns := by
  refine ⟨fun place => ?_, fun step => ⟨run_inPlace _ step, fun failure => Shared.take_error⟩,
    fun place index columns opened => ?_, fun place header => ?_⟩
  · have alike : Shared.Matches place (Shared.start sections)
        (Shared.start fun _ => sections place) := ⟨rfl, rfl⟩
    obtain ⟨ends, outcomes⟩ := alike.after steps
    exact ⟨ends.contents, outcomes⟩
  · have registered := (Shared.columns?_reached sections steps place index columns).mpr opened
    obtain ⟨grid, rfl, laid, found⟩ :=
      Shared.tidy_reached sections steps place index columns registered
    exact ⟨grid.node, found, isFilled_of_laid laid⟩
  · have fails : (∃ failure, ((Shared.reached sections steps).take ⟨place, .addCell header⟩).1 =
        .error failure) ↔ (Shared.reached sections steps).lastOpen? place = none := by
      rw [Shared.take_addCell]
      cases (Shared.reached sections steps).lastOpen? place <;> simp
    have unregistered (index : Nat) : (Shared.reached sections steps).columns? place index = none ↔
        ∀ columns, ¬ Shared.Opened sections steps place index columns := by
      simp only [Option.eq_none_iff_forall_not_mem, Option.mem_def, Shared.columns?_reached]
    rw [fails, Shared.lastOpen?_eq_none_iff]
    simp only [unregistered]

end

/-- Steps in two sections, some of them refused, with a table in each that the
register does not know. -/
def interleaved : List (Step 2) :=
  [⟨0, .declare (.number 2)⟩, ⟨1, .append (.new () "table" [])⟩, ⟨0, .addCell true⟩,
    ⟨1, .addCell false⟩, ⟨1, .declare (.text "1")⟩, ⟨0, .declare (.text "x")⟩,
    ⟨0, .addCell false⟩, ⟨1, .addCell false⟩, ⟨0, .addCell false⟩,
    ⟨0, .append (.new () "table" [])⟩]

theorem sections_stay_apart_interleaved :
    let sections : Fin 2 → Node := fun _ => Render.emptySection
    Shared.Opened sections interleaved 0 0 2 ∧
      (∃ table,
        ((Shared.reached sections interleaved).contents 0).children[0]? = some table ∧
          IsFilled 2 table) ∧
      (((Shared.reached sections interleaved).contents 0).children.map
        fun table => table.children.map fun row => row.children.length) = [[2, 1], []] ∧
      ∃ failure, ((Shared.reached sections interleaved).take ⟨0, .addCell false⟩).1 =
        .error failure := by
  intro sections
  have opened : Shared.Opened sections interleaved 0 0 2 :=
    ⟨[], _, _, rfl, .number 2, rfl, rfl, rfl⟩
  have unknown : ∀ columns, ¬ Shared.Opened sections interleaved 0 1 columns := by
    intro columns isOpened
    have absent : (Shared.reached sections interleaved).columns? 0 1 = none := by decide +kernel
    rw [(Shared.columns?_reached sections interleaved 0 1 columns).mpr isOpened] at absent
    cases absent
  have second : (((Shared.reached sections interleaved).contents 0).lastChild?
      (·.isTagged ["table"])).map Prod.fst = some 1 := by decide +kernel
  obtain ⟨⟨index, table⟩, last, rfl⟩ := Option.map_eq_some_iff.mp second
  obtain ⟨-, -, filled, refused⟩ := sections_stay_apart sections interleaved
  exact ⟨opened, filled 0 0 2 opened, by decide +kernel,
    (refused 0 false).mpr (.inr ⟨1, table, last, unknown⟩)⟩

end Folio.Table
