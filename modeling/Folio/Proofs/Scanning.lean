import Folio.Json.Reader
import Mathlib.Data.List.TakeWhile
import Mathlib.Data.Nat.Digits.Defs

/-!
# What readers leave

A reader that takes a value off the front of a text hands on an end of that
text, which is shorter.  So the bound on the number of calls is never what stops
it.  The one failure that is no error in the text comes from a run of digits in
the text that is longer than the limit.  Digits within the limit keep their value.
-/

namespace Folio

/-! ### Outcomes -/

section Outcomes

variable {Cause Wider Result : Type} (rename : Cause → Wider)

@[simp] theorem mapError_ok (result : Result) :
    (Except.ok result : Except Cause Result).mapError rename = .ok result := rfl

@[simp] theorem mapError_error (cause : Cause) :
    (Except.error cause : Except Cause Result).mapError rename = .error (rename cause) := rfl

theorem mapError_eq_ok_iff {outcome : Except Cause Result} {result : Result} :
    outcome.mapError rename = .ok result ↔ outcome = .ok result := by
  cases outcome <;> simp

theorem toOption_eq_some_iff {outcome : Except Cause Result} {result : Result} :
    outcome.toOption = some result ↔ outcome = .ok result := by
  cases outcome <;> simp [Except.toOption]

/-- Two steps in turn have a result exactly when each of them has one. -/
theorem bind_eq_ok_iff {First : Type} {outcome : Except Cause First}
    {next : First → Except Cause Result} {result : Result} :
    (outcome >>= next) = .ok result ↔ ∃ first, outcome = .ok first ∧ next first = .ok result := by
  cases outcome <;> simp [bind, Except.bind]

theorem bind_eq_error_iff {First : Type} {outcome : Except Cause First}
    {next : First → Except Cause Result} {cause : Cause} :
    (outcome >>= next) = .error cause ↔
      outcome = .error cause ∨ ∃ result, outcome = .ok result ∧ next result = .error cause := by
  cases outcome <;> simp [bind, Except.bind]

end Outcomes

/-! ### Digits -/

section Digits

variable {Digit : Type} (value : Digit → Nat) {digits : List Digit}

theorem foldl_digits_lt (small : ∀ digit ∈ digits, value digit < 10) (before : Nat) :
    digits.foldl (fun total digit => 10 * total + value digit) before <
      (before + 1) * 10 ^ digits.length := by
  induction digits generalizing before with
  | nil => simp
  | cons digit rest inductionHypothesis =>
      have least := small digit List.mem_cons_self
      have others := fun other member => small other (List.mem_cons_of_mem digit member)
      calc rest.foldl (fun total digit => 10 * total + value digit) (10 * before + value digit)
          < (10 * before + value digit + 1) * 10 ^ rest.length := inductionHypothesis others _
        _ ≤ ((before + 1) * 10) * 10 ^ rest.length := Nat.mul_le_mul_right _ (by omega)
        _ = (before + 1) * 10 ^ (rest.length + 1) := by rw [Nat.pow_succ', Nat.mul_assoc]

/-- A number that is read from digits within the limit is itself within the limit. -/
theorem length_toDigits_foldl (small : ∀ digit ∈ digits, value digit < 10)
    (few : digits.length ≤ Text.digitLimit) :
    (Nat.toDigits 10 (digits.foldl (fun total digit => 10 * total + value digit) 0)).length ≤
      Text.digitLimit := by
  have bound := foldl_digits_lt value small 0
  rw [Nat.zero_add, Nat.one_mul] at bound
  exact Nat.toDigits_length _ _ _ (by decide)
    (Nat.lt_of_lt_of_le bound (Nat.pow_le_pow_right (by decide) few))

end Digits

/-! ### Runs of characters of one kind -/

section Runs

variable {Item : Type} {isPart : Item → Bool} {run rest : List Item}

/-- A run ends where something stands that does not belong to it, or nothing. -/
theorem takeWhile_run (parts : ∀ item ∈ run, isPart item = true)
    (ends : ∀ item ∈ rest.head?, isPart item = false) : (run ++ rest).takeWhile isPart = run := by
  rw [List.takeWhile_append_of_pos parts]
  cases rest with
  | nil => simp
  | cons item others => simp [ends item rfl]

theorem dropWhile_run (parts : ∀ item ∈ run, isPart item = true)
    (ends : ∀ item ∈ rest.head?, isPart item = false) : (run ++ rest).dropWhile isPart = rest := by
  rw [List.dropWhile_append_of_pos parts]
  cases rest with
  | nil => rfl
  | cons item others => simp [ends item rfl]

end Runs

namespace Json

variable {Result Next : Type}

/-! ### What is taken off -/

/-- Somewhere in a text stands a run of decimal digits that is longer than the
limit, and the fault counts its digits. -/
def HoldsLongNumeral (s : List Char) (fault : Text.NumeralFault) : Prop :=
  ∃ digits, digits <:+: s ∧ (∀ c ∈ digits, isAsciiDigit c = true) ∧
    Text.digitLimit < digits.length ∧ fault = .tooManyDigits digits.length

theorem HoldsLongNumeral.of_infix {s whole : List Char} {fault : Text.NumeralFault}
    (holds : HoldsLongNumeral s fault) (within : s <:+: whole) : HoldsLongNumeral whole fault := by
  obtain ⟨digits, inText, areDigits, long, counted⟩ := holds
  exact ⟨digits, inText.trans within, areDigits, long, counted⟩

/-- A reading of a text: it leaves an end of the text behind at least a number of
characters, or the text is refused, or it holds a numeral that is too long. -/
inductive Takes (least : Nat) (s : List Char) : Reading Result → Prop
  | ok {result : Result} {rest : List Char} (isEnd : rest <:+ s)
      (shorter : rest.length + least ≤ s.length) : Takes least s (.ok (result, rest))
  | refused (fault : Fault) : Takes least s (.error (.refused fault))
  | numeral {fault : Text.NumeralFault} (holds : HoldsLongNumeral s fault) :
      Takes least s (.error (.numeral fault))

namespace Takes

variable {least more : Nat} {s : List Char} {reading : Reading Result}

theorem mono (takes : Takes more s reading) (fewer : least ≤ more) : Takes least s reading := by
  cases takes with
  | ok isEnd shorter => exact .ok isEnd (by omega)
  | refused fault => exact .refused fault
  | numeral holds => exact .numeral holds

/-- What is read behind some characters is read of the text that begins with
them. -/
theorem behind {rest : List Char} (takes : Takes least rest reading) (isEnd : rest <:+ s)
    (shorter : rest.length + more ≤ s.length) : Takes (more + least) s reading := by
  cases takes with
  | ok restIsEnd restShorter => exact .ok (restIsEnd.trans isEnd) (by omega)
  | refused fault => exact .refused fault
  | numeral holds => exact .numeral (holds.of_infix isEnd.isInfix)

/-- What is read of an end of a text is read of the text. -/
theorem ofEnd {rest : List Char} (takes : Takes least rest reading) (isEnd : rest <:+ s) :
    Takes least s reading := by
  have shorter := isEnd.length_le
  cases takes with
  | ok restIsEnd restShorter => exact .ok (restIsEnd.trans isEnd) (by omega)
  | refused fault => exact .refused fault
  | numeral holds => exact .numeral (holds.of_infix isEnd.isInfix)

theorem behind_cons {c : Char} {rest : List Char} (takes : Takes least rest reading) :
    Takes (1 + least) (c :: rest) reading :=
  takes.behind (List.suffix_cons c rest) (by simp)

theorem andThen {next : Result → List Char → Reading Next} (takes : Takes more s reading)
    (follows : ∀ result rest, Takes least rest (next result rest)) :
    Takes (more + least) s (reading.andThen next) := by
  cases takes with
  | ok isEnd shorter => exact (follows _ _).behind isEnd shorter
  | refused fault => exact .refused fault
  | numeral holds => exact .numeral holds

theorem andThen_zero {next : Result → List Char → Reading Next} (takes : Takes least s reading)
    (follows : ∀ result rest, Takes 0 rest (next result rest)) :
    Takes least s (reading.andThen next) := takes.andThen follows

end Takes

theorem takes_ok (result : Result) (s : List Char) : Takes 0 s (.ok (result, s)) :=
  .ok List.suffix_rfl (Nat.le_refl _)

theorem takes_problemAt {least : Nat} {s rest : List Char} {problem : Problem} :
    Takes least s (problemAt problem rest : Reading Result) := .refused _

theorem takes_consCode {least : Nat} {s : List Char} {code : Nat} {reading : Reading (List Nat)}
    (takes : Takes least s reading) : Takes least s (consCode code reading) :=
  takes.andThen fun codes rest => takes_ok (code :: codes) rest

theorem takes_readCodes (opening s : List Char) : Takes 1 s (readCodes opening s) := by
  fun_induction readCodes opening s with
  | case2 rest => exact .ok (List.suffix_cons _ rest) (by simp)
  | case4 a b c d code head tail _ inductionHypothesis =>
      exact takes_consCode (inductionHypothesis.ofEnd
        (List.suffix_append ['\\', 'u', a, b, c, d] (head :: tail)))
  | case7 letter rest _ _ c _ inductionHypothesis =>
      exact takes_consCode (inductionHypothesis.ofEnd (List.suffix_append ['\\', letter] rest))
  | case10 c rest _ _ _ _ _ _ inductionHypothesis =>
      exact takes_consCode (inductionHypothesis.behind_cons.mono (by omega))
  | case1 | case3 | case5 | case6 | case8 | case9 => exact takes_problemAt

theorem takes_readString (afterQuote : List Char) : Takes 1 afterQuote (readString afterQuote) :=
  (takes_readCodes _ afterQuote).andThen fun codes rest =>
    takes_ok (String.ofList (charsOf codes)) rest

/-! ### Escapes in strings -/

/-- The code point that four hexadecimal digits stand for, and what is left of the
string behind them. -/
def hexEscape? : List Char → Option (Nat × List Char)
  | a :: b :: c :: d :: next :: rest => (hexQuad? a b c d).map (·, next :: rest)
  | _ => none

theorem readCodes_hexEscape (opening s : List Char) :
    readCodes opening ('\\' :: 'u' :: s) =
      match hexEscape? s with
      | some (code, rest) => consCode code (readCodes opening rest)
      | none => problemAt .badUnicodeEscape ('u' :: s) := by
  match s with
  | [] | [_] | [_, _] | [_, _, _] => rfl
  | [a, b, c, d] =>
      rw [readCodes.eq_def]
      cases quad : hexQuad? a b c d <;> simp [quad, hexEscape?]
  | a :: b :: c :: d :: next :: rest =>
      rw [readCodes.eq_def]
      cases quad : hexQuad? a b c d <;> simp [hexEscape?, quad]

theorem readCodes_shortEscape (opening : List Char) {letter : Char} (notHex : letter ≠ 'u')
    (rest : List Char) :
    readCodes opening ('\\' :: letter :: rest) =
      match shortEscape? letter with
      | some c => consCode c.toNat (readCodes opening rest)
      | none => problemAt .badEscape ('\\' :: letter :: rest) := by
  rw [readCodes.eq_def]
  cases short : shortEscape? letter <;> simp [short, notHex]

theorem readCodes_plain (opening : List Char) {c : Char} (notQuote : c ≠ '"')
    (notBackslash : c ≠ '\\') (rest : List Char) :
    readCodes opening (c :: rest) =
      if c.toNat < 0x20 then problemAt .controlCharacter (c :: rest)
      else consCode c.toNat (readCodes opening rest) := by
  rw [readCodes.eq_def]
  split <;> simp_all

/-! ### Numbers -/

/-- The digits in front of the point are those that the text begins with, and there
is at least one. -/
theorem readWhole_eq_some {s digits rest : List Char} (read : readWhole s = some (digits, rest)) :
    s = digits ++ rest ∧ digits ≠ [] ∧ ∀ c ∈ digits, isAsciiDigit c = true := by
  unfold readWhole at read
  split at read
  · cases read
  · cases read
    exact ⟨rfl, by simp, by simp [isAsciiDigit]⟩
  · rename_i c behind _
    split at read
    · rename_i isDigit
      cases read
      refine ⟨?_, by simp, ?_⟩
      · rw [List.cons_append, List.takeWhile_append_dropWhile]
      · intro digit member
        rcases List.mem_cons.mp member with rfl | others
        · exact isDigit
        · exact List.mem_takeWhile_imp others
    · cases read

theorem suffix_readFraction (s : List Char) : (readFraction s).2 <:+ s := by
  unfold readFraction
  split
  · rename_i rest
    have behindDigits : rest.dropWhile isAsciiDigit <:+ '.' :: rest :=
      (List.dropWhile_suffix _).trans (List.suffix_cons _ _)
    split
    · exact List.suffix_rfl
    · rename_i digits after _ spanned
      have isRest : rest.dropWhile isAsciiDigit = after := congrArg Prod.snd spanned
      rwa [isRest] at behindDigits
  · exact List.suffix_rfl

theorem suffix_readSign (s : List Char) : (readSign s).2 <:+ s := by
  unfold readSign
  split
  · exact List.suffix_cons _ _
  · exact List.suffix_cons _ _
  · exact List.suffix_rfl

theorem suffix_readExponent (s : List Char) : (readExponent s).2 <:+ s := by
  unfold readExponent
  split
  · exact List.suffix_rfl
  · rename_i mark rest
    split
    · have behindDigits : (readSign rest).2.dropWhile isAsciiDigit <:+ mark :: rest :=
        ((List.dropWhile_suffix _).trans (suffix_readSign rest)).trans (List.suffix_cons _ _)
      dsimp only
      split
      · exact List.suffix_rfl
      · rename_i digits after _ spanned
        have isRest : (readSign rest).2.dropWhile isAsciiDigit = after := congrArg Prod.snd spanned
        rwa [isRest] at behindDigits
    · exact List.suffix_rfl

theorem takes_readNumber (start : List Char) (negative : Bool) (s : List Char) :
    Takes 1 s (readNumber start negative s) := by
  unfold readNumber
  split
  · exact takes_problemAt
  · rename_i whole afterWhole read
    obtain ⟨rfl, nonempty, areDigits⟩ := readWhole_eq_some read
    have isEnd : (readExponent (readFraction afterWhole).2).2 <:+ afterWhole :=
      (suffix_readExponent _).trans (suffix_readFraction afterWhole)
    have taken : 0 < whole.length := List.length_pos_iff.mpr nonempty
    have shorter : (readExponent (readFraction afterWhole).2).2.length + 1 ≤
        (whole ++ afterWhole).length := by
      have bound := isEnd.length_le
      rw [List.length_append]
      omega
    have isEndOfAll := isEnd.trans (List.suffix_append whole afterWhole)
    dsimp only
    split
    · split
      · rename_i long
        exact .numeral ⟨whole, (List.prefix_append whole afterWhole).isInfix, areDigits, long, rfl⟩
      · exact .ok isEndOfAll shorter
    · exact .ok isEndOfAll shorter

theorem value_lt_ten {c : Char} (digit : isAsciiDigit c = true) : c.toNat - '0'.toNat < 10 := by
  have below : c.toNat ≤ '9'.toNat := by
    simp only [isAsciiDigit, Bool.and_eq_true, decide_eq_true_eq] at digit
    exact digit.2
  have nine : '9'.toNat = '0'.toNat + 9 := rfl
  omega

/-- A whole number is read with the value that its digits have. -/
theorem value_of_readNumber {start s rest : List Char} {negative : Bool} {number : Whole}
    (read : readNumber start negative s = .ok (.integer number, rest)) :
    ∃ whole after, readWhole s = some (whole, after) ∧
      number.value = if negative then -(digitsValue whole : Int) else digitsValue whole := by
  unfold readNumber at read
  split at read
  · cases read
  · rename_i whole after found
    refine ⟨whole, after, found, ?_⟩
    dsimp only at read
    split at read
    · split at read
      · cases read
      · rename_i few
        cases read
        have size : (if negative then -(digitsValue whole : Int) else digitsValue whole).natAbs =
            digitsValue whole := by
          cases negative <;> simp
        have digits := (readWhole_eq_some found).2.2
        have fits : (Nat.toDigits 10 (digitsValue whole)).length ≤ Text.digitLimit :=
          length_toDigits_foldl (fun digit : Char => digit.toNat - '0'.toNat)
            (fun digit member => value_lt_ten (digits digit member)) (Nat.not_lt.mp few)
        rw [← size] at fits
        exact Whole.value_intCast fits
    · cases read

theorem readWord?_eq_some {s rest : List Char} {value : Value}
    (read : readWord? s = some (value, rest)) :
    ∃ word, (word, value) ∈ valueWords ∧ s = word ++ rest := by
  obtain ⟨⟨word, meaning⟩, known, begins⟩ := List.exists_of_findSome?_eq_some read
  dsimp only at begins
  split at begins
  · rename_i isPrefix
    cases begins
    obtain ⟨behind, rfl⟩ := List.isPrefixOf_iff_prefix.mp isPrefix
    exact ⟨word, known, by rw [List.drop_left]⟩
  · cases begins

theorem takes_readScalar (s : List Char) : Takes 1 s (readScalar s) := by
  unfold readScalar
  split
  · rename_i reading found
    obtain ⟨word, known, rfl⟩ := readWord?_eq_some found
    have isLong : ∀ entry ∈ valueWords, 0 < entry.1.length := by decide
    have taken : 0 < word.length := isLong _ known
    refine .ok (List.suffix_append word _) ?_
    rw [List.length_append]
    omega
  · split
    · exact (takes_readNumber _ true _).behind_cons.mono (by omega)
    · exact takes_readNumber _ false _

/-! ### Values -/

theorem suffix_skipSpacing (s : List Char) : skipSpacing s <:+ s := List.dropWhile_suffix _

theorem suffix_of_skipSpacing {s behind : List Char} {c : Char}
    (skipped : skipSpacing s = c :: behind) : behind <:+ s :=
  (List.suffix_cons c behind).trans (skipped ▸ suffix_skipSpacing s)

theorem Takes.behindSpacing {least : Nat} {s : List Char} {reading : Reading Result}
    (takes : Takes least (skipSpacing s) reading) : Takes least s reading :=
  takes.ofEnd (suffix_skipSpacing s)

theorem takes_behindSpacing {s behind : List Char} {c : Char} (result : Result)
    (skipped : skipSpacing s = c :: behind) : Takes 0 s (.ok (result, behind)) :=
  have isEnd := suffix_of_skipSpacing skipped
  .ok isEnd isEnd.length_le

theorem takes_readName (s : List Char) : Takes 1 s (readName s) := by
  unfold readName
  split
  · rename_i afterQuote
    refine ((takes_readString afterQuote).andThen_zero fun name rest => ?_).behind_cons.mono
      (by omega)
    split
    · rename_i behind skipped
      have isEnd := (suffix_skipSpacing behind).trans (suffix_of_skipSpacing skipped)
      exact .ok isEnd isEnd.length_le
    · exact takes_problemAt
  · exact takes_problemAt

mutual
theorem takes_readValue : (fuel : Nat) → (s : List Char) → Takes 1 s (readValue fuel s)
  | 0, _ => takes_problemAt
  | fuel + 1, s => by
      unfold readValue
      split
      · rename_i rest
        exact ((takes_readString rest).andThen fun value behind =>
          takes_ok (Value.text value) behind).behind_cons.mono (by omega)
      · rename_i rest
        split
        · rename_i behind closed
          exact (takes_behindSpacing (Value.array []) closed).behind_cons
        · exact ((takes_readItems fuel (skipSpacing rest)).behindSpacing.andThen
            fun items behind => takes_ok (Value.array items) behind).behind_cons.mono (by omega)
      · rename_i rest
        split
        · rename_i behind closed
          exact (takes_behindSpacing (Value.object []) closed).behind_cons
        · exact ((takes_readMembers fuel (skipSpacing rest)).behindSpacing.andThen
            fun members behind =>
              takes_ok (Value.object (membersOf members)) behind).behind_cons.mono (by omega)
      · exact takes_readScalar s

theorem takes_readItems : (fuel : Nat) → (s : List Char) → Takes 1 s (readItems fuel s)
  | 0, _ => takes_problemAt
  | fuel + 1, s => by
      refine (takes_readValue fuel s).andThen_zero fun item rest => ?_
      split
      · rename_i behind closed
        exact takes_behindSpacing [item] closed
      · rename_i behind continued
        have isEnd := suffix_of_skipSpacing continued
        exact (((takes_readItems fuel (skipSpacing behind)).behindSpacing.andThen
          fun items after => takes_ok (item :: items) after).ofEnd isEnd).mono (by omega)
      · exact takes_problemAt

theorem takes_readMembers : (fuel : Nat) → (s : List Char) → Takes 1 s (readMembers fuel s)
  | 0, _ => takes_problemAt
  | fuel + 1, s => by
      refine (takes_readName s).andThen_zero fun name rest => ?_
      refine ((takes_readValue fuel rest).andThen_zero fun value rest => ?_).mono (Nat.zero_le _)
      split
      · rename_i behind closed
        exact takes_behindSpacing [(name, value)] closed
      · rename_i behind continued
        have isEnd := suffix_of_skipSpacing continued
        exact (((takes_readMembers fuel (skipSpacing behind)).behindSpacing.andThen
          fun members after => takes_ok ((name, value) :: members) after).ofEnd isEnd).mono
            (by omega)
      · exact takes_problemAt
end

/-! ### The bound on the number of calls -/

/-- What follows a reading is only asked about shorter texts. -/
theorem Takes.andThen_congr {least : Nat} {s : List Char} {reading : Reading Result}
    (takes : Takes least s reading) {next other : Result → List Char → Reading Next}
    (same : ∀ result rest, rest.length + least ≤ s.length → next result rest = other result rest) :
    reading.andThen next = reading.andThen other := by
  cases takes with
  | ok _ shorter => exact same _ _ shorter
  | refused fault => rfl
  | numeral _ => rfl

theorem length_skipSpacing (s : List Char) : (skipSpacing s).length ≤ s.length :=
  (suffix_skipSpacing s).length_le

mutual
/-- More calls than twice the length of a text make no difference to what is read
of it. -/
theorem readValue_eq_of_le :
    (fuel other : Nat) → (s : List Char) → 2 * s.length + 1 ≤ fuel → 2 * s.length + 1 ≤ other →
      readValue fuel s = readValue other s
  | fuel + 1, other + 1, s, enough, enoughOther => by
      unfold readValue
      split
      · rfl
      · rename_i rest
        have bound := length_skipSpacing rest
        rw [List.length_cons] at enough enoughOther
        split
        · rfl
        · rw [readItems_eq_of_le fuel other (skipSpacing rest) (by omega) (by omega)]
      · rename_i rest
        have bound := length_skipSpacing rest
        rw [List.length_cons] at enough enoughOther
        split
        · rfl
        · rw [readMembers_eq_of_le fuel other (skipSpacing rest) (by omega) (by omega)]
      · rfl

theorem readItems_eq_of_le :
    (fuel other : Nat) → (s : List Char) → 2 * s.length + 2 ≤ fuel → 2 * s.length + 2 ≤ other →
      readItems fuel s = readItems other s
  | fuel + 1, other + 1, s, enough, enoughOther => by
      unfold readItems
      rw [readValue_eq_of_le fuel other s (by omega) (by omega)]
      refine (takes_readValue other s).andThen_congr fun item rest shorter => ?_
      split
      · rfl
      · rename_i behind continued
        have bound := (suffix_of_skipSpacing continued).length_le
        have skipped := length_skipSpacing behind
        rw [readItems_eq_of_le fuel other (skipSpacing behind) (by omega) (by omega)]
      · rfl

theorem readMembers_eq_of_le :
    (fuel other : Nat) → (s : List Char) → 2 * s.length + 2 ≤ fuel → 2 * s.length + 2 ≤ other →
      readMembers fuel s = readMembers other s
  | fuel + 1, other + 1, s, enough, enoughOther => by
      unfold readMembers
      refine (takes_readName s).andThen_congr fun name rest nameShorter => ?_
      rw [readValue_eq_of_le fuel other rest (by omega) (by omega)]
      refine (takes_readValue other rest).andThen_congr fun value rest shorter => ?_
      split
      · rfl
      · rename_i behind continued
        have bound := (suffix_of_skipSpacing continued).length_le
        have skipped := length_skipSpacing behind
        rw [readMembers_eq_of_le fuel other (skipSpacing behind) (by omega) (by omega)]
      · rfl
end

/-! ### Whole texts -/

/-- The value of a text, given what is read behind the spacing in front. -/
def atEnd : Reading Value → Except (Failure Fault) Value
  | .error failure => .error failure
  | .ok (value, rest) =>
      match skipSpacing rest with
      | [] => .ok value
      | behind => .error (.refused ⟨.extraData, behind⟩)

theorem readDocument_of_noMark {s : List Char} (noMark : s.head? ≠ some '\uFEFF') :
    readDocument s = atEnd (readValue (2 * s.length + 2) (skipSpacing s)) := by
  rw [readDocument]
  · cases readValue (2 * s.length + 2) (skipSpacing s) <;> rfl
  · rintro rest rfl
    exact noMark rfl

theorem holdsLongNumeral_of_readDocument {s : List Char} {fault : Text.NumeralFault}
    (failed : readDocument s = .error (.numeral fault)) : HoldsLongNumeral s fault := by
  unfold readDocument at failed
  split at failed
  · cases failed
  · have takes := takes_readValue (2 * s.length + 2) (skipSpacing s)
    cases read : readValue (2 * s.length + 2) (skipSpacing s) with
    | error failure =>
        rw [read] at failed takes
        obtain rfl : failure = .numeral fault := Except.error.inj failed
        cases takes with
        | numeral holds => exact holds.of_infix (suffix_skipSpacing s).isInfix
    | ok result =>
        rw [read] at failed
        simp only [bind, Except.bind] at failed
        split at failed
        · cases failed
        · cases failed

/-- The only failure to read a text that is no error in the text comes from a numeral
in it that is too long. -/
theorem holdsLongNumeral_of_parse {text : String} {fault : Text.NumeralFault}
    (failed : parse text = .error (.numeral fault)) : HoldsLongNumeral text.toList fault := by
  unfold parse at failed
  cases read : readDocument text.toList with
  | ok value =>
      rw [read] at failed
      cases failed
  | error failure =>
      rw [read] at failed
      cases failure with
      | refused cause => cases failed
      | numeral found =>
          obtain rfl : found = fault := by simpa [Failure.map] using failed
          exact holdsLongNumeral_of_readDocument read

end Json

end Folio
