import Folio.Proofs.Joining
import Folio.Proofs.Refusals

/-!
# Column counts given as text

The column count of a table is given as a number or as a text.  A text that writes a
natural number, behind zeros and between blanks, does in every document what the number
does, since the test for digits and the conversion then see the same digits.  A text of
blanks, a text with any other printable ASCII character and a text whose digits are parted
by a blank are no counts, and a table that declares one is refused.
-/

namespace Folio

open Markup Render

namespace Text

/-! ### ASCII characters -/

/-- The ASCII blanks that may surround the digits of a number. -/
def asciiBlanks : List Char := [' ', '\t', '\n', '\r', '\u000b', '\u000c']

theorem isNumeralBlank_of_mem {c : Char} (member : c ∈ asciiBlanks) :
    isNumeralBlank c = true := by
  have all : asciiBlanks.all isNumeralBlank = true := by decide
  exact List.all_eq_true.mp all c member

theorem isBlank_of_mem {c : Char} (member : c ∈ asciiBlanks) : isBlank c = true :=
  ((isNumeralBlank_iff c).mp (isNumeralBlank_of_mem member)).1

theorem isDigit_iff_toNat (c : Char) :
    c.isDigit = true ↔ 0x30 ≤ c.toNat ∧ c.toNat ≤ 0x39 := by
  simp only [Char.isDigit, Bool.and_eq_true, decide_eq_true_eq, ge_iff_le,
    UInt32.le_iff_toNat_le]
  rfl

/-- The first range of the decimal digits is that of ASCII. -/
theorem digitValue?_of_isDigit {c : Char} (digit : c.isDigit = true) :
    digitValue? c = some (c.toNat - '0'.toNat) := by
  obtain ⟨above, below⟩ := (isDigit_iff_toNat c).mp digit
  rw [digitValue?, decimalDigits, List.find?_cons_of_pos (by simp [above, below]),
    Option.map_some]
  have small : c.toNat - 0x30 < 10 := by omega
  exact congrArg some (Nat.mod_eq_of_lt small)

theorem isDecimal_of_isDigit {c : Char} (digit : c.isDigit = true) : isDecimal c = true := by
  by_contra other
  have none := (digitValue?_eq_none_iff c).mpr (by simpa using other)
  simp [digitValue?_of_isDigit digit] at none

/-- The printable ASCII characters other than digits and the blank. -/
def asciiSigns : CharClass := ⟨[(0x21, 0x2F), (0x3A, 0x7E)]⟩

theorem contains_asciiSigns {c : Char} (printable : ' ' < c ∧ c ≤ '~')
    (notDigit : c.isDigit = false) : asciiSigns.contains c = true := by
  have above : 0x20 < c.toNat := printable.1
  have below : c.toNat ≤ 0x7E := printable.2
  have apart : ¬ (0x30 ≤ c.toNat ∧ c.toNat ≤ 0x39) := by simp [← isDigit_iff_toNat, notDigit]
  simp [CharClass.contains, asciiSigns]
  omega

/-- A sign is neither blank nor a digit of any script. -/
theorem isBlank_of_asciiSigns {c : Char} (sign : asciiSigns.contains c = true) :
    isBlank c = false ∧ isDigit c = false := by
  have decimal := CharClass.contains_eq_false_of_isApart _ decimalDigits (by decide) sign
  have other := CharClass.contains_eq_false_of_isApart _ otherDigits (by decide) sign
  exact ⟨CharClass.contains_eq_false_of_isApart _ blank (by decide) sign,
    Bool.or_eq_false_iff.mpr ⟨decimal, other⟩⟩

/-! ### Texts that write a number -/

/-- A text that writes a natural number: its decimal digits behind any zeros, not too many
together, between ASCII blanks. -/
def Writes (text : String) (count : Nat) : Prop :=
  ∃ before zeros after,
    text.toList = before ++ (List.replicate zeros '0' ++ Nat.toDigits 10 count) ++ after ∧
      (∀ c ∈ before, c ∈ asciiBlanks) ∧ (∀ c ∈ after, c ∈ asciiBlanks) ∧
      zeros + (Nat.toDigits 10 count).length ≤ digitLimit

variable {text : String} {count : Nat}

theorem ofDigits_of_isDigit {digits : List Char} (ascii : ∀ c ∈ digits, c.isDigit = true) :
    ofDigits (digits.map fun c => (digitValue? c).getD 0) = Nat.ofDigitChars 10 digits 0 := by
  have values : (digits.map fun c => (digitValue? c).getD 0) =
      digits.map fun c => c.toNat - '0'.toNat := by
    refine List.map_congr_left fun c member => ?_
    rw [digitValue?_of_isDigit (ascii c member), Option.getD_some]
  rw [values, ofDigits, List.foldl_map, Nat.ofDigitChars_eq_foldl]

theorem ofDigitChars_zeros (zeros : Nat) (digits : List Char) :
    Nat.ofDigitChars 10 (List.replicate zeros '0' ++ digits) 0 = Nat.ofDigitChars 10 digits 0 := by
  induction zeros with
  | zero => rfl
  | succ zeros inductionHypothesis =>
      rw [List.replicate_succ, List.cons_append, Nat.ofDigitChars_cons]
      exact inductionHypothesis

/-- Such a text passes for digits and is read as the number. -/
theorem Writes.read (writes : Writes text count) :
    looksNumeric text = true ∧ readNumeral text = .ok count := by
  obtain ⟨before, zeros, after, split, blankBefore, blankAfter, few⟩ := writes
  have ascii : ∀ c ∈ List.replicate zeros '0' ++ Nat.toDigits 10 count, c.isDigit = true := by
    intro c member
    rcases List.mem_append.mp member with leading | written
    · rw [List.eq_of_mem_replicate leading]
      rfl
    · exact Nat.isDigit_of_mem_toDigits (by decide) (by decide) written
  have nonempty : List.replicate zeros '0' ++ Nat.toDigits 10 count ≠ [] := by
    simp [Nat.toDigits_ne_nil]
  have value :
      Nat.ofDigitChars 10 (List.replicate zeros '0' ++ Nat.toDigits 10 count) 0 = count := by
    rw [ofDigitChars_zeros, Nat.ofDigitChars_ten_toDigits]
  have total : (List.replicate zeros '0' ++ Nat.toDigits 10 count).length ≤ digitLimit := by
    rwa [List.length_append, List.length_replicate]
  generalize List.replicate zeros '0' ++ Nat.toDigits 10 count = digits at *
  have decimal : ∀ c ∈ digits, isDecimal c = true :=
    fun c member => isDecimal_of_isDigit (ascii c member)
  have digit : ∀ c ∈ digits, isDigit c = true :=
    fun c member => isDigit_of_isDecimal (decimal c member)
  have trimmed : trim text.toList = digits := by
    rw [split]
    exact trim_between (fun c member => isBlank_of_mem (blankBefore c member))
      (fun c member => isBlank_of_mem (blankAfter c member))
      (fun c member => isBlank_eq_false_of_isDigit (digit c member)) nonempty
  have read := readNumeral_between split
    (fun c member => isNumeralBlank_of_mem (blankBefore c member))
    (fun c member => isNumeralBlank_of_mem (blankAfter c member)) decimal nonempty total
  rw [ofDigits_of_isDigit ascii, value] at read
  refine ⟨?_, read⟩
  simp only [looksNumeric, trimmed]
  simpa [nonempty] using digit

/-! ### Texts that are no count -/

/-- Plain reasons why a text is no count. -/
inductive IsNoCount (text : String) : Prop
  | empty (onlyBlanks : ∀ c ∈ text.toList, c ∈ asciiBlanks)
  | sign {c : Char} (member : c ∈ text.toList) (printable : ' ' < c ∧ c ≤ '~')
      (notDigit : c.isDigit = false)
  | parted {first between last : Char} (parts : [first, between, last].Sublist text.toList)
      (isBlank : between ∈ asciiBlanks) (digits : isDigit first = true ∧ isDigit last = true)

/-- A text that passes for digits has only digits between its blanks. -/
theorem split_of_looksNumeric (looks : looksNumeric text = true) :
    ∃ before digits after, text.toList = before ++ (digits ++ after) ∧
      (∀ c ∈ before, isBlank c = true) ∧ (∀ c ∈ after, isBlank c = true) ∧
      (∀ c ∈ digits, isDigit c = true) ∧ digits ≠ [] := by
  obtain ⟨nonempty, digits⟩ : trim text.toList ≠ [] ∧ ∀ c ∈ trim text.toList, isDigit c = true := by
    simpa [looksNumeric] using looks
  obtain ⟨before, after, split, blankBefore, blankAfter⟩ := eq_trim_between text.toList
  rw [List.append_assoc] at split
  exact ⟨before, trim text.toList, after, split, blankBefore, blankAfter, digits, nonempty⟩

theorem IsNoCount.looksNumeric_eq_false (noCount : IsNoCount text) :
    looksNumeric text = false := by
  by_contra looks
  obtain ⟨before, digits, after, split, blankBefore, blankAfter, areDigits, nonempty⟩ :=
    split_of_looksNumeric (by simpa using looks)
  have notBlank {c : Char} (member : c ∈ digits) : isBlank c = false :=
    isBlank_eq_false_of_isDigit (areDigits c member)
  cases noCount with
  | empty onlyBlanks =>
      obtain ⟨c, member⟩ := List.exists_mem_of_ne_nil digits nonempty
      have blank := isBlank_of_mem (onlyBlanks c (by simp [split, member]))
      simp [notBlank member] at blank
  | @sign c member printable notDigit =>
      obtain ⟨solid, unread⟩ := isBlank_of_asciiSigns (contains_asciiSigns printable notDigit)
      rw [split, List.mem_append, List.mem_append] at member
      rcases member with inFront | inside | behind
      · simp [blankBefore c inFront] at solid
      · simp [areDigits c inside] at unread
      · simp [blankAfter c behind] at solid
  | @parted first between last parts blank ends =>
      -- The outer digits stand between the blanks, and so does what is between them.
      rw [split] at parts
      obtain ⟨inFront, rest, partition, subFront, subRest⟩ := List.sublist_append_iff.mp parts
      obtain ⟨inside, behind, rfl, subInside, subBehind⟩ := List.sublist_append_iff.mp subRest
      cases inFront with
      | cons c others =>
          obtain rfl : first = c := by simpa using congrArg List.head? partition
          have isFront := blankBefore first (subFront.subset (by simp))
          simp [isBlank_eq_false_of_isDigit ends.1] at isFront
      | nil =>
          rcases List.eq_nil_or_concat behind with rfl | ⟨others, c, rfl⟩
          · obtain rfl : [first, between, last] = inside := by simpa using partition
            have solid := notBlank (subInside.subset (by simp) : between ∈ digits)
            simp [isBlank_of_mem blank] at solid
          · obtain rfl : last = c := by simpa using congrArg List.getLast? partition
            have isBehind := blankAfter last (subBehind.subset (by simp))
            simp [isBlank_eq_false_of_isDigit ends.2] at isBehind

end Text

/-! ### Column counts -/

theorem Table.columnCount_writes {text : String} {count : Nat} (writes : Text.Writes text count) :
    Table.columnCount (.text text) = Table.columnCount (.number count) := by
  obtain ⟨looks, read⟩ := writes.read
  simp only [Table.columnCount, Table.readCount, looks, if_true, read]
  rfl

theorem Table.columnCount_noCount {text : String} (noCount : Text.IsNoCount text) :
    Table.columnCount (.text text) = .error (.refused (.badColumnCount (.text text))) := by
  simp [Table.columnCount, Table.readCount, noCount.looksNumeric_eq_false]

theorem Table.columnCount_zero :
    Table.columnCount (.number 0) = .error (.refused (.badColumnCount (.number 0))) := rfl

/-! ### Lines with other counts -/

/-- Two lines that are the same, or are tables one of which writes the column count of the
other as a text. -/
inductive Respelled : Line → Line → Prop
  | same (line : Line) : Respelled line line
  | table {line : Directive} {count : Nat} {text : String} (isTable : line.kind = .table)
      (numbered : line.content = .number count) (writes : Text.Writes text count) :
      Respelled (.directive line) (.directive { line with content := .text text })

namespace Render.Pass

/-- The pass with one more table in the current section. -/
def withTable (pass : Pass) (columns : Nat) : Pass :=
  { pass with
    register :=
      ⟨(⟨pass.sectionNumber, pass.current.children.length⟩, columns) :: pass.register.entries⟩
    current := pass.current.appendChild (.new () "table" []) }

/-- A table takes nothing from its line but the column count. -/
theorem newTable_eq_map (pass : Pass) (line : Directive) :
    pass.newTable line = (Table.columnCount line.content).map pass.withTable := by
  unfold newTable Table.declare
  cases Table.columnCount line.content <;> rfl

theorem obey_table {line : Directive} (isTable : line.kind = .table) (pass : Pass) :
    pass.obey line = pass.newTable line := by
  simp only [obey, isTable]

/-- A line does the same when its count is given as a text. -/
theorem step_respelled {line other : Line} (respelled : Respelled line other) (pass : Pass) :
    pass.step other = pass.step line := by
  cases respelled with
  | same => rfl
  | @table line count text isTable numbered writes =>
      have sameCount : Table.columnCount (.text text) = Table.columnCount line.content := by
        rw [numbered, Table.columnCount_writes writes]
      have alsoTable : Directive.kind { line with content := .text text } = .table := isTable
      simp only [step, Line.resets]
      rw [obey_table isTable, obey_table alsoTable, newTable_eq_map, newTable_eq_map, sameCount]
      rfl

theorem run_respelled {lines others : List Line} (respelled : List.Forall₂ Respelled lines others)
    (pass : Pass) : pass.run others = pass.run lines := by
  induction respelled generalizing pass with
  | nil => rfl
  | cons first _ inductionHypothesis =>
      rw [run, run, step_respelled first]
      exact congrArg (_ >>= ·) (funext inductionHypothesis)

/-- A table with a refused count ends a run that comes so far. -/
theorem run_refused {line : Directive} {failure : Failure RenderError}
    (isTable : line.kind = .table) (refused : Table.columnCount line.content = .error failure)
    (pass : Pass) (earlier later : List Line) :
    pass.run (earlier ++ .directive line :: later) =
      pass.run earlier >>= fun _ => .error failure := by
  have stops (reached : Pass) : reached.run (.directive line :: later) = .error failure := by
    rw [run, step, obey_table isTable, newTable_eq_map, refused]
    rfl
  rw [run_append]
  exact congrArg (_ >>= ·) (funext stops)

end Render.Pass

/-! ### Documents with other counts -/

theorem renderTree_respelled (options : Options) (document : Document) {lines : List Line}
    (respelled : List.Forall₂ Respelled document.lines lines) :
    renderTree options { document with lines := lines } = renderTree options document := by
  rw [renderTree_eq_map, renderTree_eq_map]
  exact congrArg (Except.map _) (Pass.run_respelled respelled (initialPass options document))

theorem renderTree_refused (options : Options) (document : Document) {line : Directive}
    {failure : Failure RenderError} (isTable : line.kind = .table)
    (refused : Table.columnCount line.content = .error failure) (earlier later : List Line) :
    renderTree options { document with lines := earlier ++ .directive line :: later } =
      renderTree options { document with lines := earlier } >>= fun _ => .error failure := by
  have ran := Pass.run_refused isTable refused (initialPass options document) earlier later
  rw [renderTree_eq_map, renderTree_eq_map]
  refine (congrArg (Except.map _) ran).trans ?_
  have sameOpening : initialPass options { document with lines := earlier } =
      initialPass options document := rfl
  rw [sameOpening]
  cases (initialPass options document).run earlier <;> rfl

/-- A document renders alike when column counts in it are given as texts: to the same page,
or with the same failure.  A table without columns is refused, and so is one that declares
a text that is no count, provided that the lines before it are rendered. -/
theorem renderTree_counts (options : Options) (document : Document) :
    (∀ lines, List.Forall₂ Respelled document.lines lines →
      renderTree options { document with lines := lines } = renderTree options document) ∧
    ∀ (earlier later : List Line) (line : Directive) (text : String), line.kind = .table →
      line.content = .text text →
      (Text.Writes text 0 →
        renderTree options { document with lines := earlier ++ .directive line :: later } =
          renderTree options { document with lines := earlier } >>= fun _ =>
            .error (.refused (.badColumnCount (.number 0)))) ∧
      (Text.IsNoCount text →
        renderTree options { document with lines := earlier ++ .directive line :: later } =
          renderTree options { document with lines := earlier } >>= fun _ =>
            .error (.refused (.badColumnCount (.text text)))) := by
  refine ⟨fun lines respelled => renderTree_respelled options document respelled, ?_⟩
  intro earlier later line text isTable content
  refine ⟨fun writes => ?_, fun noCount => ?_⟩
  · refine renderTree_refused options document isTable ?_ earlier later
    rw [content, Table.columnCount_writes writes]
    exact Table.columnCount_zero
  · refine renderTree_refused options document isTable ?_ earlier later
    rw [content, Table.columnCount_noCount noCount]

/-- Two columns written behind a zero and between blanks, no columns written with two zeros,
and a text with two numbers. -/
theorem renderTree_counts_two :
    let table (content : Content) : Directive := { Directive.plain .table with content := content }
    let page (content : Content) : Except (Failure RenderError) Node :=
      renderTree .standard ⟨[] ++ .directive (table content) :: [], [], true⟩
    Text.Writes "\t02\r\n" 2 ∧ page (.text "\t02\r\n") = page (.number 2) ∧
      Text.Writes "00" 0 ∧
      page (.text "00") = .error (.refused (.badColumnCount (.number 0))) ∧
      Text.IsNoCount "1 2" ∧
      page (.text "1 2") = .error (.refused (.badColumnCount (.text "1 2"))) := by
  intro table page
  have two : Text.Writes "\t02\r\n" 2 :=
    ⟨['\t'], 1, ['\r', '\n'], rfl, by simp [Text.asciiBlanks], by simp [Text.asciiBlanks],
      by decide⟩
  have none : Text.Writes "00" 0 := ⟨[], 1, [], rfl, by simp, by simp, by decide⟩
  have parted : Text.IsNoCount "1 2" :=
    .parted (List.Sublist.refl ['1', ' ', '2']) (by decide) (by decide)
  have respelled := (renderTree_counts .standard ⟨[.directive (table (.number 2))], [], true⟩).1
    [.directive (table (.text "\t02\r\n"))] (.cons (.table rfl rfl two) .nil)
  have refused (text : String) :=
    (renderTree_counts .standard ⟨[], [], true⟩).2 [] [] (table (.text text)) text rfl rfl
  obtain ⟨blank, rendered⟩ : ∃ blank, renderTree .standard ⟨[], [], true⟩ = .ok blank := by
    rw [Draft.renderTree_eq_page]
    exact ⟨_, rfl⟩
  refine ⟨two, respelled, none, ?_, parted, ?_⟩
  · exact ((refused "00").1 none).trans (by rw [rendered]; rfl)
  · exact ((refused "1 2").2 parted).trans (by rw [rendered]; rfl)

end Folio
