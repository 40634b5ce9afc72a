import Folio.Convert
import Folio.Proofs.Scanning
import Folio.Text.Newline

/-!
# Line ends do not matter to a conversion

Writing every line end of a text as a line feed changes neither what the text is
converted to nor in which way it is refused.  Between the parts of a value a line
end is spacing in every form, and inside a string it is refused in every form.
-/

namespace Folio

namespace Text

theorem unifyNewlines_cons {c : Char} (other : c ≠ '\r') (rest : List Char) :
    unifyNewlines (c :: rest) = c :: unifyNewlines rest := by
  rw [unifyNewlines]
  · rintro _ rfl
    contradiction
  · rintro rfl
    contradiction

theorem unifyNewlines_append {word : List Char} (plain : '\r' ∉ word) (rest : List Char) :
    unifyNewlines (word ++ rest) = word ++ unifyNewlines rest := by
  induction word with
  | nil => rfl
  | cons c others inductionHypothesis =>
      obtain ⟨notFirst, notLater⟩ : '\r' ≠ c ∧ '\r' ∉ others := by simpa using plain
      rw [List.cons_append, unifyNewlines_cons (Ne.symm notFirst), inductionHypothesis notLater]
      rfl

theorem length_unifyNewlines_le (s : List Char) : (unifyNewlines s).length ≤ s.length := by
  fun_induction unifyNewlines s with
  | case1 => rfl
  | case2 rest inductionHypothesis => simp; omega
  | case3 rest _ inductionHypothesis => simpa using inductionHypothesis
  | case4 c rest _ _ inductionHypothesis => simpa using inductionHypothesis

theorem unifyNewlines_return (rest : List Char) :
    ∃ behind, unifyNewlines ('\r' :: rest) = '\n' :: behind := by
  unfold unifyNewlines
  split <;> grind

/-- A text that is not empty begins with a return, which becomes a line feed, or with
a character that stays. -/
theorem unifyNewlines_cases (s : List Char) :
    s = [] ∨ (∃ rest unified, s = '\r' :: rest ∧ unifyNewlines s = '\n' :: unified) ∨
      ∃ c rest, c ≠ '\r' ∧ s = c :: rest ∧ unifyNewlines s = c :: unifyNewlines rest := by
  cases s with
  | nil => exact .inl rfl
  | cons c rest =>
      by_cases isReturn : c = '\r'
      · obtain ⟨unified, fed⟩ := unifyNewlines_return rest
        exact .inr (.inl ⟨rest, unified, by rw [isReturn], by rw [isReturn, fed]⟩)
      · exact .inr (.inr ⟨c, rest, isReturn, rfl, unifyNewlines_cons isReturn rest⟩)

/-- What the unified text begins with, unless it is a line feed, the text begins
with. -/
theorem cons_of_unifyNewlines {s unified : List Char} {c : Char}
    (begins : unifyNewlines s = c :: unified) (other : c ≠ '\n') :
    ∃ rest, s = c :: rest ∧ unifyNewlines rest = unified := by
  cases s with
  | nil => cases begins
  | cons first rest =>
      by_cases isReturn : first = '\r'
      · obtain ⟨behind, fed⟩ := unifyNewlines_return rest
        rw [isReturn, fed] at begins
        cases begins
        contradiction
      · rw [unifyNewlines_cons isReturn] at begins
        cases begins
        exact ⟨rest, rfl, rfl⟩

theorem isEmpty_unifyNewlines (s : List Char) : (unifyNewlines s).isEmpty = s.isEmpty := by
  fun_cases unifyNewlines s <;> rfl

theorem takeWhile_unifyNewlines {isPart : Char → Bool} (notReturn : isPart '\r' = false)
    (notFeed : isPart '\n' = false) (s : List Char) :
    (unifyNewlines s).takeWhile isPart = s.takeWhile isPart := by
  fun_induction unifyNewlines s with
  | case1 => rfl
  | case2 rest => simp [notReturn, notFeed]
  | case3 rest => simp [notReturn, notFeed]
  | case4 c rest _ _ inductionHypothesis => simp only [List.takeWhile_cons, inductionHypothesis]

theorem dropWhile_unifyNewlines {isPart : Char → Bool} (alike : isPart '\r' = isPart '\n')
    (s : List Char) : (unifyNewlines s).dropWhile isPart = unifyNewlines (s.dropWhile isPart) := by
  fun_induction unifyNewlines s with
  | case1 => rfl
  | case2 rest inductionHypothesis =>
      cases fed : isPart '\n' <;> simp [alike, fed, inductionHypothesis, unifyNewlines]
  | case3 rest _ inductionHypothesis =>
      cases fed : isPart '\n' with
      | true => simp [alike, fed, inductionHypothesis]
      | false => simp [alike, fed, unifyNewlines]
  | case4 c rest _ other inductionHypothesis =>
      cases part : isPart c <;> simp [part, inductionHypothesis, unifyNewlines_cons other]

/-- A word without line ends that stands in front of the unified text stands in front
of the text. -/
theorem append_of_unifyNewlines {s word unified : List Char} (noFeed : '\n' ∉ word)
    (begins : unifyNewlines s = word ++ unified) :
    ∃ rest, s = word ++ rest ∧ unifyNewlines rest = unified := by
  induction word generalizing s with
  | nil => exact ⟨s, rfl, begins⟩
  | cons c others inductionHypothesis =>
      obtain ⟨notFirst, notLater⟩ : '\n' ≠ c ∧ '\n' ∉ others := by simpa using noFeed
      obtain ⟨behind, rfl, unifiedBehind⟩ := cons_of_unifyNewlines begins (Ne.symm notFirst)
      obtain ⟨rest, rfl, unifiedRest⟩ := inductionHypothesis notLater unifiedBehind
      exact ⟨rest, rfl, unifiedRest⟩

theorem isPrefixOf_unifyNewlines {word : List Char} (noReturn : '\r' ∉ word)
    (noFeed : '\n' ∉ word) (s : List Char) :
    word.isPrefixOf (unifyNewlines s) = word.isPrefixOf s := by
  rw [Bool.eq_iff_iff, List.isPrefixOf_iff_prefix, List.isPrefixOf_iff_prefix]
  constructor
  · rintro ⟨unified, begins⟩
    obtain ⟨rest, rfl, -⟩ := append_of_unifyNewlines noFeed begins.symm
    exact List.prefix_append _ _
  · rintro ⟨rest, rfl⟩
    rw [unifyNewlines_append noReturn]
    exact List.prefix_append _ _

end Text

namespace Json

open Text

variable {Result Next : Type}

/-- Two readings, of a text and of the text with its line ends unified, that come to
the same: to one result, with what is left unified as well, or to failures of one
kind. -/
inductive UpToNewlines : Reading Result → Reading Result → Prop
  | ok (result : Result) (rest : List Char) :
      UpToNewlines (.ok (result, rest)) (.ok (result, unifyNewlines rest))
  | refused (fault other : Fault) : UpToNewlines (.error (.refused fault)) (.error (.refused other))
  | numeral (fault : NumeralFault) :
      UpToNewlines (.error (.numeral fault)) (.error (.numeral fault))

namespace UpToNewlines

@[simp]
theorem problemAt (problem otherProblem : Problem) (rest otherRest : List Char) :
    UpToNewlines (problemAt problem rest : Reading Result)
      (Json.problemAt otherProblem otherRest) :=
  .refused _ _

theorem andThen {reading unified : Reading Result} (same : UpToNewlines reading unified)
    {next nextUnified : Result → List Char → Reading Next}
    (follows : ∀ result rest,
      UpToNewlines (next result rest) (nextUnified result (unifyNewlines rest))) :
    UpToNewlines (reading.andThen next) (unified.andThen nextUnified) := by
  cases same with
  | ok result rest => exact follows result rest
  | refused fault other => exact .refused fault other
  | numeral fault => exact .numeral fault

theorem map {reading unified : Reading Result} (same : UpToNewlines reading unified)
    (build : Result → Next) :
    UpToNewlines (reading.andThen fun result rest => .ok (build result, rest))
      (unified.andThen fun result rest => .ok (build result, rest)) :=
  same.andThen fun result rest => .ok (build result) rest

end UpToNewlines

/-! ### Strings -/

theorem hexEscape?_eq_some_iff {s rest : List Char} {code : Nat} :
    hexEscape? s = some (code, rest) ↔
      ∃ a b c d, s = [a, b, c, d] ++ rest ∧ hexQuad? a b c d = some code ∧ rest ≠ [] := by
  unfold hexEscape?
  split
  · rename_i a b c d next behind
    simp only [Option.map_eq_some_iff, Prod.mk.injEq]
    constructor
    · rintro ⟨_, quad, rfl, rfl⟩
      exact ⟨a, b, c, d, rfl, quad, by simp⟩
    · rintro ⟨_, _, _, _, same, quad, nonempty⟩
      cases same
      exact ⟨code, quad, rfl, rfl⟩
  · rename_i short
    simp only [reduceCtorEq, false_iff]
    rintro ⟨a, b, c, d, rfl, -, nonempty⟩
    obtain ⟨next, behind, rfl⟩ := List.exists_cons_of_ne_nil nonempty
    exact short a b c d next behind rfl

theorem not_mem_of_hexQuad? {a b c d : Char} {code : Nat}
    (quad : hexQuad? a b c d = some code) (other : Char) (noDigit : hexValue? other = none) :
    other ∉ [a, b, c, d] := by
  intro member
  simp only [List.mem_cons, List.not_mem_nil, or_false] at member
  rcases member with rfl | rfl | rfl | rfl <;> simp [hexQuad?, noDigit] at quad

theorem hexEscape?_unifyNewlines (s : List Char) :
    hexEscape? (unifyNewlines s) =
      (hexEscape? s).map fun (code, rest) => (code, unifyNewlines rest) := by
  have nonempty (rest : List Char) : unifyNewlines rest ≠ [] ↔ rest ≠ [] := by
    have same := isEmpty_unifyNewlines rest
    cases rest <;> simp_all
  ext ⟨code, unified⟩
  simp only [Option.map_eq_some_iff, Prod.exists, Prod.mk.injEq, hexEscape?_eq_some_iff]
  constructor
  · rintro ⟨a, b, c, d, begins, quad, some⟩
    have noFeed := not_mem_of_hexQuad? quad '\n' (by decide)
    obtain ⟨rest, rfl, rfl⟩ := append_of_unifyNewlines noFeed begins
    exact ⟨code, rest, ⟨a, b, c, d, rfl, quad, (nonempty rest).mp some⟩, rfl, rfl⟩
  · rintro ⟨_, rest, ⟨a, b, c, d, rfl, quad, some⟩, rfl, rfl⟩
    have noReturn := not_mem_of_hexQuad? quad '\r' (by decide)
    exact ⟨a, b, c, d, unifyNewlines_append noReturn rest, quad, (nonempty rest).mpr some⟩

theorem upToNewlines_badHexEscape {s : List Char} (bad : hexEscape? s = none) {problem : Problem}
    {other rest : List Char} :
    UpToNewlines (problemAt problem rest) (readCodes other (unifyNewlines ('\\' :: 'u' :: s))) := by
  rw [unifyNewlines_cons (by decide), unifyNewlines_cons (by decide), readCodes_hexEscape,
    hexEscape?_unifyNewlines, bad]
  exact .problemAt _ _ _ _

theorem upToNewlines_badEscape {letter : Char} (notHex : letter ≠ 'u')
    (bad : shortEscape? letter = none) {problem : Problem} {other rest behind : List Char} :
    UpToNewlines (problemAt problem behind)
      (readCodes other (unifyNewlines ('\\' :: letter :: rest))) := by
  rw [unifyNewlines_cons (by decide)]
  by_cases isReturn : letter = '\r'
  · obtain ⟨unified, fed⟩ := unifyNewlines_return rest
    rw [isReturn, fed, readCodes_shortEscape other (by decide)]
    exact .problemAt _ _ _ _
  · rw [unifyNewlines_cons isReturn, readCodes_shortEscape other notHex, bad]
    exact .problemAt _ _ _ _

theorem upToNewlines_control {c : Char} (notQuote : c ≠ '"') (notBackslash : c ≠ '\\')
    (control : c.toNat < 0x20) {problem : Problem} {other rest behind : List Char} :
    UpToNewlines (problemAt problem behind) (readCodes other (unifyNewlines (c :: rest))) := by
  by_cases isReturn : c = '\r'
  · obtain ⟨unified, fed⟩ := unifyNewlines_return rest
    rw [isReturn, fed, readCodes_plain other (by decide) (by decide), if_pos (by decide)]
    exact .problemAt _ _ _ _
  · rw [unifyNewlines_cons isReturn, readCodes_plain other notQuote notBackslash, if_pos control]
    exact .problemAt _ _ _ _

/-- A character that is neither a last backslash nor one with a letter behind it is no
backslash. -/
theorem ne_backslash {c : Char} {rest : List Char} (notLast : c = '\\' → rest = [] → False)
    (notEscaping : ∀ letter behind, c = '\\' → rest = letter :: behind → False) : c ≠ '\\' := by
  intro backslash
  cases rest with
  | nil => exact notLast backslash rfl
  | cons letter behind => exact notEscaping letter behind backslash rfl

theorem upToNewlines_readCodes (opening other s : List Char) :
    UpToNewlines (readCodes opening s) (readCodes other (unifyNewlines s)) := by
  fun_induction readCodes opening s with
  | case1 => exact .problemAt _ _ _ _
  | case2 rest =>
      rw [unifyNewlines_cons (by decide), readCodes]
      exact .ok [] rest
  | case3 => exact .problemAt _ _ _ _
  | case4 a b c d code head tail quad inductionHypothesis =>
      have escape : hexEscape? (a :: b :: c :: d :: head :: tail) = some (code, head :: tail) := by
        simp [hexEscape?, quad]
      rw [unifyNewlines_cons (by decide), unifyNewlines_cons (by decide), readCodes_hexEscape,
        hexEscape?_unifyNewlines, escape]
      exact inductionHypothesis.map (code :: ·)
  | case5 a b c d rest bad =>
      refine upToNewlines_badHexEscape ?_
      cases rest with
      | nil => rfl
      | cons next behind =>
          cases quad : hexQuad? a b c d with
          | none => simp [hexEscape?, quad]
          | some code => exact (bad code next behind quad rfl).elim
  | case6 rest short =>
      refine upToNewlines_badHexEscape ?_
      unfold hexEscape?
      split
      · exact (short _ _ _ _ _ rfl).elim
      · rfl
  | case7 letter rest _ notHex c short inductionHypothesis =>
      have notReturn : letter ≠ '\r' := by
        rintro rfl
        cases short
      rw [unifyNewlines_cons (by decide), unifyNewlines_cons notReturn,
        readCodes_shortEscape _ notHex, short]
      exact inductionHypothesis.map (c.toNat :: ·)
  | case8 letter rest _ notHex bad => exact upToNewlines_badEscape notHex bad
  | case9 c rest notQuote atEnd _ _ escaping control =>
      have notBackslash := ne_backslash atEnd escaping
      exact upToNewlines_control notQuote notBackslash control
  | case10 c rest notQuote atEnd _ _ escaping printable inductionHypothesis =>
      have notBackslash := ne_backslash atEnd escaping
      have notReturn : c ≠ '\r' := by
        rintro rfl
        exact printable (by decide)
      rw [unifyNewlines_cons notReturn, readCodes_plain _ notQuote notBackslash, if_neg printable]
      exact inductionHypothesis.map (c.toNat :: ·)

theorem upToNewlines_readString (afterQuote : List Char) :
    UpToNewlines (readString afterQuote) (readString (unifyNewlines afterQuote)) :=
  (upToNewlines_readCodes _ _ afterQuote).map fun codes => String.ofList (charsOf codes)

/-! ### Numbers -/

theorem spanAsciiDigits_unifyNewlines (s : List Char) :
    spanAsciiDigits (unifyNewlines s) =
      ((spanAsciiDigits s).1, unifyNewlines (spanAsciiDigits s).2) := by
  rw [spanAsciiDigits, takeWhile_unifyNewlines (by decide) (by decide),
    dropWhile_unifyNewlines (by decide)]
  rfl

theorem readWhole_unifyNewlines (s : List Char) :
    readWhole (unifyNewlines s) =
      (readWhole s).map fun (digits, rest) => (digits, unifyNewlines rest) := by
  rcases unifyNewlines_cases s with rfl | ⟨rest, unified, rfl, fed⟩ | ⟨c, rest, -, rfl, kept⟩
  · rfl
  · rw [fed]
    rfl
  · rw [kept]
    by_cases zero : c = '0'
    · rw [zero]
      rfl
    · simp only [readWhole, spanAsciiDigits_unifyNewlines]
      cases isAsciiDigit c <;> rfl

theorem readFraction_unifyNewlines (s : List Char) :
    readFraction (unifyNewlines s) = ((readFraction s).1, unifyNewlines (readFraction s).2) := by
  rcases unifyNewlines_cases s with rfl | ⟨rest, unified, rfl, fed⟩ | ⟨c, rest, -, rfl, kept⟩
  · rfl
  · rw [fed, readFraction, readFraction, fed] <;> simp
  · rw [kept]
    by_cases point : c = '.'
    · rw [point] at kept ⊢
      simp only [readFraction, spanAsciiDigits_unifyNewlines]
      obtain ⟨digits, behind⟩ := spanAsciiDigits rest
      cases digits with
      | nil => rw [kept]
      | cons digit others => rfl
    · rw [readFraction, readFraction, kept] <;> simp [point]

theorem readSign_unifyNewlines (s : List Char) :
    readSign (unifyNewlines s) = ((readSign s).1, unifyNewlines (readSign s).2) := by
  rcases unifyNewlines_cases s with rfl | ⟨rest, unified, rfl, fed⟩ | ⟨c, rest, -, rfl, kept⟩
  · rfl
  · rw [fed, readSign, readSign, fed] <;> simp
  · rw [kept]
    by_cases minus : c = '-'
    · rw [minus]
      rfl
    · by_cases plus : c = '+'
      · rw [plus]
        rfl
      · rw [readSign, readSign, kept] <;> simp [minus, plus]

theorem readExponent_unifyNewlines (s : List Char) :
    readExponent (unifyNewlines s) = ((readExponent s).1, unifyNewlines (readExponent s).2) := by
  rcases unifyNewlines_cases s with rfl | ⟨rest, unified, rfl, fed⟩ | ⟨mark, rest, -, rfl, kept⟩
  · rfl
  · rw [fed, readExponent, readExponent, if_neg (by decide), if_neg (by decide), fed]
  · rw [kept, readExponent, readExponent]
    split
    · simp only [readSign_unifyNewlines]
      obtain ⟨negative, unsigned⟩ := readSign rest
      simp only [spanAsciiDigits_unifyNewlines]
      obtain ⟨digits, behind⟩ := spanAsciiDigits unsigned
      cases digits with
      | nil => simp [kept]
      | cons digit others => simp
    · rw [kept]

theorem upToNewlines_readNumber (start other : List Char) (negative : Bool) (s : List Char) :
    UpToNewlines (readNumber start negative s) (readNumber other negative (unifyNewlines s)) := by
  unfold readNumber
  rw [readWhole_unifyNewlines]
  cases readWhole s with
  | none => exact .problemAt _ _ _ _
  | some whole =>
      obtain ⟨digits, rest⟩ := whole
      simp only [Option.map_some, readFraction_unifyNewlines, readExponent_unifyNewlines]
      split
      · split
        · exact .numeral _
        · exact .ok _ _
      · exact .ok _ _

theorem readWord?_unifyNewlines (s : List Char) :
    readWord? (unifyNewlines s) =
      (readWord? s).map fun (value, rest) => (value, unifyNewlines rest) := by
  have plain : ∀ entry ∈ valueWords, '\r' ∉ entry.1 ∧ '\n' ∉ entry.1 := by decide
  unfold readWord?
  generalize valueWords = words at plain ⊢
  induction words with
  | nil => rfl
  | cons entry others inductionHypothesis =>
      obtain ⟨noReturn, noFeed⟩ := plain entry (by simp)
      have following := inductionHypothesis fun later member =>
        plain later (List.mem_cons_of_mem _ member)
      simp only [List.findSome?_cons, isPrefixOf_unifyNewlines noReturn noFeed]
      cases begins : entry.1.isPrefixOf s with
      | false => simpa using following
      | true =>
          obtain ⟨rest, rfl⟩ := List.isPrefixOf_iff_prefix.mp begins
          simp [unifyNewlines_append noReturn]

theorem upToNewlines_readScalar (s : List Char) :
    UpToNewlines (readScalar s) (readScalar (unifyNewlines s)) := by
  unfold readScalar
  rw [readWord?_unifyNewlines]
  cases readWord? s with
  | some reading => exact .ok _ _
  | none =>
      rcases unifyNewlines_cases s with rfl | ⟨rest, unified, rfl, fed⟩ | ⟨c, rest, -, rfl, kept⟩
      · exact upToNewlines_readNumber _ _ false []
      · have same := upToNewlines_readNumber ('\r' :: rest) ('\n' :: unified) false ('\r' :: rest)
        rw [fed] at same ⊢
        exact same
      · rw [kept]
        by_cases minus : c = '-'
        · rw [minus]
          exact upToNewlines_readNumber _ _ true rest
        · have same :=
            upToNewlines_readNumber (c :: rest) (c :: unifyNewlines rest) false (c :: rest)
          rw [kept] at same
          simpa [minus] using same

/-! ### Values -/

theorem skipSpacing_unifyNewlines (s : List Char) :
    skipSpacing (unifyNewlines s) = unifyNewlines (skipSpacing s) :=
  dropWhile_unifyNewlines (by decide) s

/-- What stands behind spacing is no line end. -/
theorem skipSpacing_cases (s : List Char) :
    (skipSpacing s = [] ∧ skipSpacing (unifyNewlines s) = []) ∨
      ∃ c rest, skipSpacing s = c :: rest ∧
        skipSpacing (unifyNewlines s) = c :: unifyNewlines rest := by
  rw [skipSpacing_unifyNewlines]
  cases skipped : skipSpacing s with
  | nil => exact .inl ⟨rfl, rfl⟩
  | cons c rest =>
      have solid : isSpacing c = false := by
        simpa [← skipSpacing.eq_1, skipped] using List.head?_dropWhile_not isSpacing s
      have notReturn : c ≠ '\r' := by
        rintro rfl
        cases solid
      exact .inr ⟨c, rest, rfl, unifyNewlines_cons notReturn rest⟩

theorem upToNewlines_readName (s : List Char) :
    UpToNewlines (readName s) (readName (unifyNewlines s)) := by
  rcases unifyNewlines_cases s with rfl | ⟨rest, unified, rfl, fed⟩ | ⟨c, rest, -, rfl, kept⟩
  · exact .problemAt _ _ _ _
  · rw [fed]
    exact .problemAt _ _ _ _
  · rw [kept]
    by_cases quote : c = '"'
    · rw [quote]
      refine (upToNewlines_readString rest).andThen fun name behind => ?_
      rcases skipSpacing_cases behind with
        ⟨ends, unifiedEnds⟩ | ⟨next, after, begins, unifiedBegins⟩
      · rw [ends, unifiedEnds]
        exact .problemAt _ _ _ _
      · rw [begins, unifiedBegins]
        by_cases colon : next = ':'
        · have same := UpToNewlines.ok name (skipSpacing after)
          rw [← skipSpacing_unifyNewlines] at same
          rw [colon]
          exact same
        · simp [colon]
    · simp [readName, quote]

theorem upToNewlines_array {fuel : Nat} {rest : List Char}
    (items : UpToNewlines (readItems fuel (skipSpacing rest))
      (readItems fuel (unifyNewlines (skipSpacing rest)))) :
    UpToNewlines (readValue (fuel + 1) ('[' :: rest))
      (readValue (fuel + 1) ('[' :: unifyNewlines rest)) := by
  have composed := items.map Value.array
  rw [← skipSpacing_unifyNewlines] at composed
  rcases skipSpacing_cases rest with ⟨ends, unifiedEnds⟩ | ⟨next, behind, begins, unifiedBegins⟩
  · rw [ends, unifiedEnds] at composed
    simpa only [readValue, ends, unifiedEnds] using composed
  · rw [begins, unifiedBegins] at composed
    by_cases closing : next = ']'
    · simpa [readValue, begins, unifiedBegins, closing]
        using UpToNewlines.ok (Value.array []) behind
    · simpa [readValue, begins, unifiedBegins, closing] using composed

theorem upToNewlines_object {fuel : Nat} {rest : List Char}
    (members : UpToNewlines (readMembers fuel (skipSpacing rest))
      (readMembers fuel (unifyNewlines (skipSpacing rest)))) :
    UpToNewlines (readValue (fuel + 1) ('\x7b' :: rest))
      (readValue (fuel + 1) ('\x7b' :: unifyNewlines rest)) := by
  have composed := members.map fun members => Value.object (membersOf members)
  rw [← skipSpacing_unifyNewlines] at composed
  rcases skipSpacing_cases rest with ⟨ends, unifiedEnds⟩ | ⟨next, behind, begins, unifiedBegins⟩
  · rw [ends, unifiedEnds] at composed
    simpa only [readValue, ends, unifiedEnds] using composed
  · rw [begins, unifiedBegins] at composed
    by_cases closing : next = '\x7d'
    · simpa [readValue, begins, unifiedBegins, closing]
        using UpToNewlines.ok (Value.object []) behind
    · simpa [readValue, begins, unifiedBegins, closing] using composed

mutual
theorem upToNewlines_readValue : (fuel : Nat) → (s : List Char) →
    UpToNewlines (readValue fuel s) (readValue fuel (unifyNewlines s))
  | 0, _ => .problemAt _ _ _ _
  | fuel + 1, s => by
      rcases unifyNewlines_cases s with rfl | ⟨rest, unified, rfl, fed⟩ | ⟨c, rest, -, rfl, kept⟩
      · exact upToNewlines_readScalar []
      · have same := upToNewlines_readScalar ('\r' :: rest)
        rw [fed] at same ⊢
        exact same
      · have scalar := upToNewlines_readScalar (c :: rest)
        rw [kept] at scalar ⊢
        by_cases quote : c = '"'
        · rw [quote]
          exact (upToNewlines_readString rest).map Value.text
        · by_cases bracket : c = '['
          · rw [bracket]
            exact upToNewlines_array (upToNewlines_readItems fuel (skipSpacing rest))
          · by_cases brace : c = '\x7b'
            · rw [brace]
              exact upToNewlines_object (upToNewlines_readMembers fuel (skipSpacing rest))
            · simpa [readValue, quote, bracket, brace] using scalar

theorem upToNewlines_readItems : (fuel : Nat) → (s : List Char) →
    UpToNewlines (readItems fuel s) (readItems fuel (unifyNewlines s))
  | 0, _ => .problemAt _ _ _ _
  | fuel + 1, s => by
      refine (upToNewlines_readValue fuel s).andThen fun item rest => ?_
      rcases skipSpacing_cases rest with ⟨ends, unifiedEnds⟩ | ⟨c, behind, begins, unifiedBegins⟩
      · rw [ends, unifiedEnds]
        exact .problemAt _ _ _ _
      · rw [begins, unifiedBegins]
        by_cases closing : c = ']'
        · rw [closing]
          exact .ok [item] behind
        · by_cases comma : c = ','
          · have same := upToNewlines_readItems fuel (skipSpacing behind)
            rw [← skipSpacing_unifyNewlines] at same
            rw [comma]
            exact same.map (item :: ·)
          · simp [closing, comma]

theorem upToNewlines_readMembers : (fuel : Nat) → (s : List Char) →
    UpToNewlines (readMembers fuel s) (readMembers fuel (unifyNewlines s))
  | 0, _ => .problemAt _ _ _ _
  | fuel + 1, s => by
      refine (upToNewlines_readName s).andThen fun name rest => ?_
      refine (upToNewlines_readValue fuel rest).andThen fun value rest => ?_
      rcases skipSpacing_cases rest with ⟨ends, unifiedEnds⟩ | ⟨c, behind, begins, unifiedBegins⟩
      · rw [ends, unifiedEnds]
        exact .problemAt _ _ _ _
      · rw [begins, unifiedBegins]
        by_cases closing : c = '\x7d'
        · rw [closing]
          exact .ok [(name, value)] behind
        · by_cases comma : c = ','
          · have same := upToNewlines_readMembers fuel (skipSpacing behind)
            rw [← skipSpacing_unifyNewlines] at same
            rw [comma]
            exact same.map ((name, value) :: ·)
          · simp [closing, comma]
end

/-! ### Whole texts -/

/-- A text with unified line ends is read as the text is, or both are refused. -/
theorem readDocument_unifyNewlines (s : List Char) :
    readDocument (unifyNewlines s) = readDocument s ∨
      ∃ fault other, readDocument (unifyNewlines s) = .error (.refused other) ∧
        readDocument s = .error (.refused fault) := by
  by_cases mark : s.head? = some '\uFEFF'
  · obtain ⟨rest, rfl⟩ := List.head?_eq_some_iff.mp mark
    rw [unifyNewlines_cons (by decide)]
    exact .inr ⟨_, _, rfl, rfl⟩
  · have unifiedMark : (unifyNewlines s).head? ≠ some '\uFEFF' := by
      intro unifiedMark
      obtain ⟨unified, begins⟩ := List.head?_eq_some_iff.mp unifiedMark
      obtain ⟨rest, rfl, -⟩ := cons_of_unifyNewlines begins (by decide)
      exact mark rfl
    have fewer := length_unifyNewlines_le s
    have spacing := length_skipSpacing (unifyNewlines s)
    have same := upToNewlines_readValue (2 * s.length + 2) (skipSpacing s)
    rw [← skipSpacing_unifyNewlines] at same
    rw [readDocument_of_noMark mark, readDocument_of_noMark unifiedMark,
      readValue_eq_of_le _ (2 * s.length + 2) (skipSpacing (unifyNewlines s)) (by omega) (by omega)]
    -- the readings of the two texts come to the same, and so does what is left of them
    generalize readValue (2 * s.length + 2) (skipSpacing s) = reading at same ⊢
    generalize readValue (2 * s.length + 2) (skipSpacing (unifyNewlines s)) = unified at same ⊢
    cases same with
    | ok value rest =>
        rcases skipSpacing_cases rest with ⟨ends, unifiedEnds⟩ | ⟨c, behind, begins, unifiedBegins⟩
        · left
          simp [atEnd, ends, unifiedEnds]
        · right
          simp [atEnd, begins, unifiedBegins]
    | refused fault other => exact .inr ⟨fault, other, rfl, rfl⟩
    | numeral fault => exact .inl rfl

theorem parse_unifyNewlines (text : String) :
    parse (String.ofList (unifyNewlines text.toList)) = parse text ∨
      ∃ fault other,
        parse (String.ofList (unifyNewlines text.toList)) = .error (.refused other) ∧
          parse text = .error (.refused fault) := by
  unfold parse
  rw [String.toList_ofList]
  rcases readDocument_unifyNewlines text.toList with same | ⟨fault, other, unified, refused⟩
  · rw [same]
    cases readDocument text.toList with
    | ok value => exact .inl rfl
    | error failure =>
        cases failure with
        | numeral fault => exact .inl rfl
        | refused fault => exact .inr ⟨_, _, rfl, rfl⟩
  · rw [unified, refused]
    exact .inr ⟨_, _, rfl, rfl⟩

end Json

/-- What a document can be refused in. -/
inductive Stage where
  | parsing
  | rendering
  deriving DecidableEq, Repr

def ConversionError.stage : ConversionError → Stage
  | parsing _ => .parsing
  | rendering _ => .rendering

/-- Unifying the line ends of a text changes neither the page nor the stage in which the
text is refused, nor a numeral in the way. -/
theorem convert_unifyNewlines (options : Options) (text : String) :
    (convert options (String.ofList (Text.unifyNewlines text.toList))).mapError
        (·.map ConversionError.stage) =
      (convert options text).mapError (·.map ConversionError.stage) := by
  unfold convert Document.parse
  rcases Json.parse_unifyNewlines text with same | ⟨fault, other, unified, refused⟩
  · rw [same]
  · rw [unified, refused]
    rfl

theorem convert_unifyNewlines_eq_ok_iff (options : Options) (text html : String) :
    convert options (String.ofList (Text.unifyNewlines text.toList)) = .ok html ↔
      convert options text = .ok html := by
  have same := convert_unifyNewlines options text
  cases unified : convert options (String.ofList (Text.unifyNewlines text.toList)) <;>
    cases plain : convert options text <;>
    simp_all

end Folio
