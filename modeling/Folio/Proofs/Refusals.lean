import Folio.Convert
import Folio.Proofs.Pruning
import Folio.Proofs.Scanning

/-!
# Texts that are neither converted nor refused

A conversion that ends without a page has a cause to report, unless a number
stands in the way.  There are two such numbers: one in the JSON text that has too
many digits, and the column count of a table whose characters pass for digits
although no number is made of them.
-/

namespace Folio

namespace Text

/-! ### Digits between blanks -/

/-- Whether no range of one class overlaps with a range of another. -/
def CharClass.isApart (first second : CharClass) : Bool :=
  first.ranges.all fun range => second.ranges.all fun other =>
    range.2 < other.1 || other.2 < range.1

theorem CharClass.contains_eq_false_of_isApart (first second : CharClass)
    (apart : first.isApart second = true) {c : Char} (inFirst : first.contains c = true) :
    second.contains c = false := by
  obtain ⟨range, member, above, below⟩ := (first.contains_iff c).mp inFirst
  by_contra inSecond
  obtain ⟨other, otherMember, otherAbove, otherBelow⟩ :=
    (second.contains_iff c).mp (by simpa using inSecond)
  have separate := List.all_eq_true.mp (List.all_eq_true.mp apart range member) other otherMember
  have order : range.2 < other.1 ∨ other.2 < range.1 := by simpa using separate
  omega

theorem isBlank_eq_false_of_isDigit {c : Char} (digit : isDigit c = true) :
    isBlank c = false := by
  rcases Bool.or_eq_true_iff.mp digit with decimal | other
  · exact CharClass.contains_eq_false_of_isApart decimalDigits _ (by decide) decimal
  · exact CharClass.contains_eq_false_of_isApart otherDigits _ (by decide) other

theorem isDecimal_eq_false_of_isBlank {c : Char} (blank : isBlank c = true) :
    isDecimal c = false :=
  CharClass.contains_eq_false_of_isApart _ decimalDigits (by decide) blank

/-- Whether a character is one of the ASCII information separators, which are blank
and yet may not surround a number. -/
def isSeparator (c : Char) : Bool := 0x1C ≤ c.toNat && c.toNat ≤ 0x1F

theorem isBlank_of_isSeparator {c : Char} (separator : isSeparator c = true) :
    isBlank c = true := by
  have bounds : 0x1C ≤ c.toNat ∧ c.toNat ≤ 0x1F := by simpa [isSeparator] using separator
  exact (blank.contains_iff c).mpr ⟨(0x1C, 0x20), by simp [blank], bounds.1, by omega⟩

theorem isDigit_of_isDecimal {c : Char} (decimal : isDecimal c = true) : isDigit c = true :=
  Bool.or_eq_true_iff.mpr (.inl decimal)

theorem isNumeralBlank_iff (c : Char) :
    isNumeralBlank c = true ↔ isBlank c = true ∧ isSeparator c = false := by
  rw [isNumeralBlank, Bool.and_eq_true, Bool.not_eq_true']
  rfl

theorem isNumeralBlank_eq_false_of_isDigit {c : Char} (digit : isDigit c = true) :
    isNumeralBlank c = false := by
  simp [isNumeralBlank, isBlank_eq_false_of_isDigit digit]

theorem eq_trim_between (s : List Char) :
    ∃ before after, s = before ++ trim s ++ after ∧
      (∀ c ∈ before, isBlank c = true) ∧ ∀ c ∈ after, isBlank c = true := by
  refine ⟨s.takeWhile isBlank, ((s.dropWhile isBlank).reverse.takeWhile isBlank).reverse,
    ?_, fun c member => List.mem_takeWhile_imp member,
    fun c member => List.mem_takeWhile_imp (List.mem_reverse.mp member)⟩
  rw [trim, List.append_assoc, ← List.reverse_append, List.takeWhile_append_dropWhile,
    List.reverse_reverse, List.takeWhile_append_dropWhile]

/-- Trimming takes off the blanks around characters that are none. -/
theorem trim_between {before between after : List Char}
    (blankBefore : ∀ c ∈ before, isBlank c = true) (blankAfter : ∀ c ∈ after, isBlank c = true)
    (solid : ∀ c ∈ between, isBlank c = false) (nonempty : between ≠ []) :
    trim (before ++ between ++ after) = between := by
  have solidHead : ∀ c ∈ (between ++ after).head?, isBlank c = false := by
    obtain ⟨c, rest, rfl⟩ := List.exists_cons_of_ne_nil nonempty
    simpa using solid c
  have solidLast : ∀ c ∈ between.reverse.head?, isBlank c = false := by
    intro c last
    exact solid c (List.mem_reverse.mp (List.mem_of_mem_head? last))
  have blankReversed : ∀ c ∈ after.reverse, isBlank c = true :=
    fun c member => blankAfter c (List.mem_reverse.mp member)
  rw [trim, List.append_assoc, dropWhile_run blankBefore solidHead, List.reverse_append,
    dropWhile_run blankReversed solidLast, List.reverse_reverse]

theorem digitValue?_eq_none_iff (c : Char) : digitValue? c = none ↔ isDecimal c = false := by
  simp [digitValue?, isDecimal, CharClass.contains]

theorem spanDigits_eq (s : List Char) :
    spanDigits s =
      ((s.takeWhile isDecimal).map fun c => (digitValue? c).getD 0, s.dropWhile isDecimal) := by
  induction s with
  | nil => rfl
  | cons c rest inductionHypothesis =>
      cases value : digitValue? c with
      | none =>
          have other := (digitValue?_eq_none_iff c).mp value
          simp [spanDigits, value, other]
      | some digit =>
          have decimal : isDecimal c = true := by
            by_contra other
            rw [(digitValue?_eq_none_iff c).mpr (by simpa using other)] at value
            cases value
          simp [spanDigits, value, decimal, inductionHypothesis]

/-- Decimal digits, at least one and not too many, are read as the number they write,
also between blanks that are no information separators. -/
theorem readNumeral_between {s : String} {before digits after : List Char}
    (split : s.toList = before ++ digits ++ after)
    (blankBefore : ∀ c ∈ before, isNumeralBlank c = true)
    (blankAfter : ∀ c ∈ after, isNumeralBlank c = true)
    (decimal : ∀ c ∈ digits, isDecimal c = true) (nonempty : digits ≠ [])
    (few : digits.length ≤ digitLimit) :
    readNumeral s = .ok (ofDigits (digits.map fun c => (digitValue? c).getD 0)) := by
  have solid : ∀ c ∈ (digits ++ after).head?, isNumeralBlank c = false := by
    obtain ⟨c, rest, rfl⟩ := List.exists_cons_of_ne_nil nonempty
    have digit : isDigit c = true := isDigit_of_isDecimal (decimal c (by simp))
    simp [isNumeralBlank_eq_false_of_isDigit digit]
  have undecimal : ∀ c ∈ after.head?, isDecimal c = false := by
    intro c first
    have blank := blankAfter c (List.mem_of_mem_head? first)
    exact isDecimal_eq_false_of_isBlank ((isNumeralBlank_iff c).mp blank).1
  have onlyBlanks : after.all isNumeralBlank = true := List.all_eq_true.mpr blankAfter
  simp only [readNumeral, spanDigits_eq, List.length_map, List.isEmpty_map]
  rw [split, List.append_assoc, dropWhile_run blankBefore solid, takeWhile_run decimal undecimal,
    dropWhile_run decimal undecimal, onlyBlanks]
  simp [Nat.not_lt.mpr few, nonempty]

theorem digitValue?_lt {c : Char} {value : Nat} (digit : digitValue? c = some value) :
    value < 10 := by
  obtain ⟨range, -, rfl⟩ := Option.map_eq_some_iff.mp digit
  exact Nat.mod_lt _ (by decide)

/-- A count that is read is within the limit, and is not changed when it becomes the content
of a directive. -/
theorem value_of_readNumeral {s : String} {count : Nat} (read : readNumeral s = .ok count) :
    (count : Whole).value = count := by
  simp only [readNumeral, spanDigits_eq, List.length_map] at read
  split at read
  · cases read
  · rename_i few
    split at read
    · cases read
    · cases read
      refine Whole.value_natCast ?_
      refine length_toDigits_foldl id ?_ (by simpa using few)
      intro digit member
      obtain ⟨c, inside, rfl⟩ := List.mem_map.mp member
      cases value : digitValue? c with
      | none => simp
      | some digit => exact digitValue?_lt value

/-- A text is read as a number exactly when it consists of decimal digits, at least
one and not too many, and of blanks around them that are no information
separators. -/
theorem exists_readNumeral_eq_ok_iff (s : String) :
    (∃ count, readNumeral s = .ok count) ↔
      ∃ before digits after, s.toList = before ++ digits ++ after ∧
        (∀ c ∈ before, isNumeralBlank c = true) ∧ (∀ c ∈ after, isNumeralBlank c = true) ∧
        (∀ c ∈ digits, isDecimal c = true) ∧ digits ≠ [] ∧ digits.length ≤ digitLimit := by
  constructor
  · rintro ⟨count, read⟩
    simp only [readNumeral, spanDigits_eq, List.length_map, List.isEmpty_map] at read
    refine ⟨s.toList.takeWhile isNumeralBlank,
      (s.toList.dropWhile isNumeralBlank).takeWhile isDecimal,
      (s.toList.dropWhile isNumeralBlank).dropWhile isDecimal, ?_,
      fun c member => List.mem_takeWhile_imp member, ?_,
      fun c member => List.mem_takeWhile_imp member, ?_, ?_⟩
    · rw [List.append_assoc, List.takeWhile_append_dropWhile, List.takeWhile_append_dropWhile]
    all_goals
      split at read
      · cases read
      · split at read
        · cases read
        · grind
  · rintro ⟨before, digits, after, split, blankBefore, blankAfter, decimal, nonempty, few⟩
    exact ⟨_, readNumeral_between split blankBefore blankAfter decimal nonempty few⟩

/-- What a text that looks numeric needs to be read as a number. -/
structure IsPlainNumeral (s : String) : Prop where
  unseparated : ∀ c ∈ s.toList, isSeparator c = false
  decimal : ∀ c ∈ trim s.toList, isDecimal c = true
  few : (trim s.toList).length ≤ digitLimit

theorem isPlainNumeral_of_readNumeral {s : String} {count : Nat}
    (read : readNumeral s = .ok count) : IsPlainNumeral s := by
  obtain ⟨before, digits, after, split, blankBefore, blankAfter, decimal, nonempty, few⟩ :=
    (exists_readNumeral_eq_ok_iff s).mp ⟨count, read⟩
  have solid : ∀ c ∈ digits, isBlank c = false := fun c member =>
    isBlank_eq_false_of_isDigit (isDigit_of_isDecimal (decimal c member))
  have trimmed : trim s.toList = digits := by
    rw [split]
    exact trim_between (fun c member => ((isNumeralBlank_iff c).mp (blankBefore c member)).1)
      (fun c member => ((isNumeralBlank_iff c).mp (blankAfter c member)).1) solid nonempty
  constructor
  · intro c member
    rw [split, List.mem_append, List.mem_append] at member
    rcases member with (inFront | inside) | behind
    · exact ((isNumeralBlank_iff c).mp (blankBefore c inFront)).2
    · by_contra separator
      have blank := isBlank_of_isSeparator (by simpa using separator)
      rw [solid c inside] at blank
      cases blank
    · exact ((isNumeralBlank_iff c).mp (blankAfter c behind)).2
  · rwa [trimmed]
  · rwa [trimmed]

theorem exists_readNumeral_of_isPlainNumeral {s : String} (looks : looksNumeric s = true)
    (plain : IsPlainNumeral s) : ∃ count, readNumeral s = .ok count := by
  obtain ⟨nonempty, -⟩ : trim s.toList ≠ [] ∧ ∀ c ∈ trim s.toList, isDigit c = true := by
    simpa [looksNumeric] using looks
  obtain ⟨before, after, split, blankBefore, blankAfter⟩ := eq_trim_between s.toList
  refine (exists_readNumeral_eq_ok_iff s).mpr
    ⟨before, trim s.toList, after, split, ?_, ?_, plain.decimal, nonempty, plain.few⟩
  · intro c member
    have inText : c ∈ s.toList := by
      rw [split]
      exact List.mem_append_left _ (List.mem_append_left _ member)
    exact (isNumeralBlank_iff c).mpr ⟨blankBefore c member, plain.unseparated c inText⟩
  · intro c member
    have inText : c ∈ s.toList := by
      rw [split]
      exact List.mem_append_right _ member
    exact (isNumeralBlank_iff c).mpr ⟨blankAfter c member, plain.unseparated c inText⟩

/-- A text that looks numeric is not read as a number when an information separator
stands around its digits, when some digit has no decimal value, and when there are
too many digits. -/
theorem exists_readNumeral_eq_error_iff {s : String} (looks : looksNumeric s = true) :
    (∃ fault, readNumeral s = .error fault) ↔ ¬ IsPlainNumeral s := by
  cases read : readNumeral s with
  | ok count => simp [isPlainNumeral_of_readNumeral read]
  | error fault =>
      refine ⟨fun _ plain => ?_, fun _ => ⟨fault, rfl⟩⟩
      obtain ⟨count, readOk⟩ := exists_readNumeral_of_isPlainNumeral looks plain
      rw [read] at readOk
      cases readOk

end Text

/-! ### Failures without a cause -/

section Failures

variable {Cause Wider Result : Type}

theorem mapError_refused_ne_numeral (outcome : Except Cause Result) (fault : Text.NumeralFault) :
    outcome.mapError Failure.refused ≠ .error (.numeral fault) := by
  cases outcome <;> simp

theorem mapError_map_eq_numeral_iff (widen : Cause → Wider)
    (outcome : Except (Failure Cause) Result) (fault : Text.NumeralFault) :
    outcome.mapError (·.map widen) = .error (.numeral fault) ↔
      outcome = .error (.numeral fault) := by
  cases outcome with
  | error failure => cases failure <;> simp [Failure.map]
  | ok result => simp

end Failures

/-! ### Lines that stop a rendering -/

open Render

/-- A declared column count that passes for digits and is no number: an information
separator stands around the digits, some digit has no decimal value, or there are
too many digits. -/
def IsBadNumeral (declared : Content) : Prop :=
  ∃ count, declared = .text count ∧ Text.looksNumeric count = true ∧ ¬ Text.IsPlainNumeral count

theorem exists_columnCount_eq_numeral_iff (declared : Content) :
    (∃ fault, Table.columnCount declared = .error (.numeral fault)) ↔ IsBadNumeral declared := by
  have reads : (∃ fault, Table.columnCount declared = .error (.numeral fault)) ↔
      ∃ fault, Table.readCount declared = .error fault := by
    unfold Table.columnCount
    cases Table.readCount declared with
    | error fault => simp
    | ok content =>
        cases content with
        | number count => by_cases positive : 0 < count.value <;> simp [positive]
        | absent | text | flag => simp
  rw [reads]
  unfold IsBadNumeral
  cases declared with
  | absent | number | flag => simp [Table.readCount]
  | text count =>
      by_cases looks : Text.looksNumeric count = true
      · simp only [Content.text.injEq, exists_eq_left', looks, true_and,
          ← Text.exists_readNumeral_eq_error_iff looks, Table.readCount, if_true]
        cases Text.readNumeral count <;> simp [Except.map]
      · simp [Table.readCount, looks]

namespace Draft

theorem obey_eq_numeral_iff (draft : Draft) (line : Directive) (fault : Text.NumeralFault) :
    draft.obey line = .error (.numeral fault) ↔
      line.kind = .table ∧ Table.columnCount line.content = .error (.numeral fault) := by
  unfold obey
  cases line.kind with
  | table =>
      rw [Draft.newTable]
      cases Table.columnCount line.content <;> simp
  | image | destination => simp [mapError_refused_ne_numeral]
  | newSection | newParagraph | hint | link | anchor | blob => simp

/-- Only a table can stop a draft without a cause. -/
theorem step_eq_numeral_iff (draft : Draft) (line : Line) (fault : Text.NumeralFault) :
    draft.step line = .error (.numeral fault) ↔
      ∃ directive, line = .directive directive ∧ directive.kind = .table ∧
        Table.columnCount directive.content = .error (.numeral fault) := by
  cases line with
  | directive directive => simp [step, obey_eq_numeral_iff]
  | run run => simp [step]
  | foreign shown => simp [step]

/-- A run fails exactly when some line fails behind lines that do not. -/
theorem run_eq_error_iff (draft : Draft) (lines : List Line) (failure : Failure RenderError) :
    draft.run lines = .error failure ↔
      ∃ earlier line later last, lines = earlier ++ line :: later ∧
        draft.run earlier = .ok last ∧ last.step line = .error failure := by
  induction lines generalizing draft with
  | nil => simp [run]
  | cons line rest inductionHypothesis =>
      constructor
      · intro failed
        cases stepped : draft.step line with
        | error reason =>
            rw [run, stepped] at failed
            cases failed
            exact ⟨[], line, rest, draft, rfl, rfl, stepped⟩
        | ok next =>
            rw [run, stepped] at failed
            obtain ⟨earlier, stopper, later, last, split, ran, stopped⟩ :=
              (inductionHypothesis next).mp failed
            refine ⟨line :: earlier, stopper, later, last, by rw [split]; rfl, ?_, stopped⟩
            rw [run, stepped]
            exact ran
      · rintro ⟨earlier, stopper, later, last, split, ran, stopped⟩
        cases earlier with
        | nil =>
            cases split
            cases ran
            rw [run, stopped]
        | cons first others =>
            cases split
            obtain ⟨next, stepped, following⟩ := run_cons_ok ran
            rw [run, stepped]
            exact (inductionHypothesis next).mpr
              ⟨others, stopper, later, last, rfl, following, stopped⟩

end Draft

/-- Rendering a document comes to a table whose column count passes for digits and is
no number, behind lines that can be rendered. -/
def StopsAtNumeral (options : Options) (document : Document) : Prop :=
  ∃ earlier line later, document.lines = earlier ++ .directive line :: later ∧
    (∃ tree, renderTree options { document with lines := earlier } = .ok tree) ∧
    line.kind = .table ∧ IsBadNumeral line.content

theorem exists_renderTree_eq_numeral_iff (options : Options) (document : Document) :
    (∃ fault, renderTree options document = .error (.numeral fault)) ↔
      StopsAtNumeral options document := by
  have rendered (lines : List Line) :
      (∃ tree, renderTree options { document with lines := lines } = .ok tree) ↔
        ∃ last, Draft.start.run lines = .ok last := by
    rw [Draft.renderTree_eq_page]
    cases Draft.start.run lines <;> simp [Except.map]
  have stopped (fault : Text.NumeralFault) :
      renderTree options document = .error (.numeral fault) ↔
        Draft.start.run document.lines = .error (.numeral fault) := by
    rw [Draft.renderTree_eq_page]
    cases Draft.start.run document.lines <;> simp [Except.map]
  simp only [StopsAtNumeral, rendered, stopped, Draft.run_eq_error_iff, Draft.step_eq_numeral_iff,
    ← exists_columnCount_eq_numeral_iff]
  constructor
  · rintro ⟨fault, earlier, _, later, last, split, ran, line, rfl, table, counted⟩
    exact ⟨earlier, line, later, split, ⟨last, ran⟩, table, fault, counted⟩
  · rintro ⟨earlier, line, later, split, ⟨last, ran⟩, table, fault, counted⟩
    exact ⟨fault, earlier, .directive line, later, last, split, ran, line, rfl, table, counted⟩

theorem parse_eq_numeral_iff (text : String) (fault : Text.NumeralFault) :
    Document.parse text = .error (.numeral fault) ↔ Json.parse text = .error (.numeral fault) := by
  rw [Document.parse, bind_eq_error_iff, mapError_map_eq_numeral_iff]
  simp [mapError_refused_ne_numeral]

/-- A text is neither converted nor refused with a cause exactly when its JSON is not
read because of a numeral that is too long, which then stands in the text, or when
it is a document with a table whose column count passes for digits and is no number,
behind lines that can be rendered. -/
theorem exists_convert_eq_numeral_iff (options : Options) (text : String) :
    (∃ fault, convert options text = .error (.numeral fault)) ↔
      (∃ fault, Json.parse text = .error (.numeral fault) ∧
        Json.HoldsLongNumeral text.toList fault) ∨
      ∃ document, Document.parse text = .ok document ∧ StopsAtNumeral options document := by
  have long (fault : Text.NumeralFault) :
      Json.parse text = .error (.numeral fault) ∧ Json.HoldsLongNumeral text.toList fault ↔
        Document.parse text = .error (.numeral fault) := by
    rw [parse_eq_numeral_iff]
    exact and_iff_left_of_imp Json.holdsLongNumeral_of_parse
  have rendered (document : Document) (fault : Text.NumeralFault) :
      render options document = .error (.numeral fault) ↔
        renderTree options document = .error (.numeral fault) := by
    rw [render, bind_eq_error_iff]
    simp [pure, Except.pure]
  simp only [long, ← exists_renderTree_eq_numeral_iff, convert, bind_eq_error_iff,
    mapError_map_eq_numeral_iff, mapError_eq_ok_iff, rendered]
  constructor
  · rintro ⟨fault, unread | ⟨document, read, stopped⟩⟩
    · exact .inl ⟨fault, unread⟩
    · exact .inr ⟨document, read, fault, stopped⟩
  · rintro (⟨fault, unread⟩ | ⟨document, read, fault, stopped⟩)
    · exact ⟨fault, .inl unread⟩
    · exact ⟨fault, .inr ⟨document, read, stopped⟩⟩

/-- The fault of a numeral that an outcome ends with. -/
def numeralFault? {Cause Result : Type} :
    Except (Failure Cause) Result → Option Text.NumeralFault
  | .error (.numeral fault) => some fault
  | .error (.refused _) | .ok _ => none

theorem eq_of_numeralFault? {Cause Result : Type} {outcome : Except (Failure Cause) Result}
    {fault : Text.NumeralFault} (found : numeralFault? outcome = some fault) :
    outcome = .error (.numeral fault) := by
  unfold numeralFault? at found
  split at found
  · rw [Option.some.inj found]
  · cases found
  · cases found

/-- A superscript passes for a digit, and a table with that many columns is not
refused. -/
theorem convert_superscriptColumns :
    convert .standard "[\x7b\"type\": \"table\", \"content\": \"\u00b2\"\x7d]" =
      .error (.numeral (.malformed "\u00b2")) :=
  eq_of_numeralFault? (by decide +kernel)

end Folio
