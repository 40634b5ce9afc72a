import Folio.Proofs.Scanning

/-!
# Writing JSON

A value is written with spacing between its parts wherever it is wanted, and with
further characters of strings escaped if that is wanted.  Reading gives back what was
written, as long as the value holds no floating-point number, no whole number with too
many digits and no object with two members of one name.
-/

namespace Folio.Json

/-! ### Strings -/

/-- The letter that stands behind a backslash for a character. -/
def shortLetter? : Char → Option Char
  | '"' => some '"'
  | '\\' => some '\\'
  | '\x08' => some 'b'
  | '\x0c' => some 'f'
  | '\n' => some 'n'
  | '\r' => some 'r'
  | '\t' => some 't'
  | _ => none

/-- The numbers that four hexadecimal digits each write a character with: its code
point, or the two halves of a surrogate pair. -/
def unitsOf (c : Char) : List Nat :=
  if c.toNat < 0x10000 then [c.toNat]
  else [0xD800 + (c.toNat - 0x10000) / 0x400, 0xDC00 + (c.toNat - 0x10000) % 0x400]

def writeUnit (unit : Nat) : List Char := '\\' :: 'u' :: Text.hexPadded 4 unit

variable {escapes : Char → Bool}

/-- Whether a character is written by hexadecimal digits: if that is wanted, and for a
control character that has no letter. -/
def isWrittenByUnits (escapes : Char → Bool) (c : Char) : Bool :=
  escapes c || ((shortLetter? c).isNone && c.toNat < 0x20)

def writeChar (escapes : Char → Bool) (c : Char) : List Char :=
  if isWrittenByUnits escapes c then (unitsOf c).flatMap writeUnit
  else
    match shortLetter? c with
    | some letter => ['\\', letter]
    | none => [c]

/-- The code points that a written character is read as. -/
def codesOf (escapes : Char → Bool) (c : Char) : List Nat :=
  if isWrittenByUnits escapes c then unitsOf c else [c.toNat]

def writeString (escapes : Char → Bool) (text : String) : List Char :=
  '"' :: text.toList.flatMap (writeChar escapes) ++ ['"']

theorem hexPadded_succ {width : Nat} (positive : 0 < width) (n : Nat) :
    Text.hexPadded (width + 1) n =
      Text.hexPadded width (n / 0x10) ++ [Nat.digitChar (n % 0x10)] := by
  unfold Text.hexPadded
  by_cases single : n < 0x10
  · have zeros : List.replicate (width - 1) '0' ++ ['0'] = List.replicate width '0' := by
      rw [← List.replicate_succ', Nat.sub_add_cancel positive]
    rw [Nat.toDigits_of_lt_base single, Nat.div_eq_of_lt single, Nat.mod_eq_of_lt single,
      Nat.toDigits_zero]
    simp [zeros]
  · rw [Nat.toDigits_of_base_le (by omega) (Nat.not_lt.mp single)]
    simp

theorem hexPadded_four {unit : Nat} (small : unit < 0x10000) :
    Text.hexPadded 4 unit =
      [Nat.digitChar (unit / 0x1000), Nat.digitChar (unit / 0x100 % 0x10),
        Nat.digitChar (unit / 0x10 % 0x10), Nat.digitChar (unit % 0x10)] := by
  have leading : Text.hexPadded 1 (unit / 0x1000) = [Nat.digitChar (unit / 0x1000)] := by
    rw [Text.hexPadded, Nat.toDigits_of_lt_base (by omega)]
    rfl
  rw [hexPadded_succ (by omega), hexPadded_succ (by omega), hexPadded_succ (by omega),
    Nat.div_div_eq_div_mul, Nat.div_div_eq_div_mul, leading]
  simp [Nat.div_div_eq_div_mul]

theorem hexValue?_digitChar {digit : Nat} (small : digit < 0x10) :
    hexValue? (Nat.digitChar digit) = some digit := by
  have all : ∀ digit < 0x10, hexValue? (Nat.digitChar digit) = some digit := by decide
  exact all digit small

theorem readCodes_writeUnit (opening : List Char) {unit : Nat} (small : unit < 0x10000)
    {rest : List Char} (nonempty : rest ≠ []) :
    readCodes opening (writeUnit unit ++ rest) = consCode unit (readCodes opening rest) := by
  obtain ⟨next, behind, rfl⟩ := List.exists_cons_of_ne_nil nonempty
  have quad : hexQuad? (Nat.digitChar (unit / 0x1000)) (Nat.digitChar (unit / 0x100 % 0x10))
      (Nat.digitChar (unit / 0x10 % 0x10)) (Nat.digitChar (unit % 0x10)) = some unit := by
    rw [hexQuad?, hexValue?_digitChar (by omega), hexValue?_digitChar (by omega),
      hexValue?_digitChar (by omega), hexValue?_digitChar (by omega)]
    simp
    omega
  simp [writeUnit, hexPadded_four small, readCodes_hexEscape, hexEscape?, quad]

theorem toNat_lt (c : Char) : c.toNat < 0x110000 := by
  rcases c.valid with low | high
  · exact Nat.lt_trans low (by decide)
  · exact high.2

theorem unitsOf_lt (c : Char) : ∀ unit ∈ unitsOf c, unit < 0x10000 := by
  have bound := toNat_lt c
  unfold unitsOf
  split <;> simp <;> omega

theorem readCodes_writeUnits (opening : List Char) {units : List Nat}
    (small : ∀ unit ∈ units, unit < 0x10000) {rest : List Char} (nonempty : rest ≠ []) :
    readCodes opening (units.flatMap writeUnit ++ rest) =
      units.foldr consCode (readCodes opening rest) := by
  induction units with
  | nil => rfl
  | cons unit others inductionHypothesis =>
      have following := inductionHypothesis fun other member =>
        small other (List.mem_cons_of_mem _ member)
      rw [List.flatMap_cons, List.append_assoc,
        readCodes_writeUnit opening (small unit (by simp)) (by simp [nonempty]), following]
      rfl

theorem shortEscape?_shortLetter {c letter : Char} (short : shortLetter? c = some letter) :
    shortEscape? letter = some c ∧ letter ≠ 'u' := by
  unfold shortLetter? at short
  split at short
  all_goals first
    | cases short
      exact ⟨rfl, by decide⟩
    | cases short

theorem readCodes_writeChar (opening : List Char) (c : Char) {rest : List Char}
    (nonempty : rest ≠ []) :
    readCodes opening (writeChar escapes c ++ rest) =
      (codesOf escapes c).foldr consCode (readCodes opening rest) := by
  by_cases units : isWrittenByUnits escapes c = true
  · simp only [writeChar, codesOf, units, if_true]
    exact readCodes_writeUnits opening (unitsOf_lt c) nonempty
  · cases short : shortLetter? c with
    | some letter =>
        obtain ⟨escape, notHex⟩ := shortEscape?_shortLetter short
        simp [writeChar, codesOf, units, short, readCodes_shortEscape _ notHex, escape]
    | none =>
        have notQuote : c ≠ '"' := by
          rintro rfl
          cases short
        have notBackslash : c ≠ '\\' := by
          rintro rfl
          cases short
        have printable : ¬ c.toNat < 0x20 := by
          simp [isWrittenByUnits, short] at units
          omega
        simp [writeChar, codesOf, units, short, readCodes_plain _ notQuote notBackslash, printable]

theorem foldr_consCode_ok (codes others : List Nat) (rest : List Char) :
    codes.foldr consCode (.ok (others, rest)) = .ok (codes ++ others, rest) := by
  induction codes with
  | nil => rfl
  | cons code following inductionHypothesis =>
      rw [List.foldr_cons, inductionHypothesis]
      rfl

theorem readCodes_writeChars (opening rest text : List Char) :
    readCodes opening (text.flatMap (writeChar escapes) ++ '"' :: rest) =
      .ok (text.flatMap (codesOf escapes), rest) := by
  induction text with
  | nil => rfl
  | cons c others inductionHypothesis =>
      rw [List.flatMap_cons, List.append_assoc, readCodes_writeChar opening c (by simp),
        inductionHypothesis, foldr_consCode_ok]
      rfl

theorem charsOf_cons {code : Nat} (notHigh : isHighSurrogate code = false) (codes : List Nat) :
    charsOf (code :: codes) = charOf code :: charsOf codes := by
  cases codes with
  | nil => rfl
  | cons low others => simp [charsOf, notHigh]

theorem charsOf_pair {high low : Nat} (isHigh : isHighSurrogate high = true)
    (isLow : isLowSurrogate low = true) (codes : List Nat) :
    charsOf (high :: low :: codes) =
      Char.ofNat (0x10000 + (high - 0xD800) * 0x400 + (low - 0xDC00)) :: charsOf codes := by
  simp [charsOf, isHigh, isLow]

theorem charsOf_codePoint (c : Char) (codes : List Nat) :
    charsOf (c.toNat :: codes) = c :: charsOf codes := by
  have valid : c.toNat < 0xD800 ∨ 0xDFFF < c.toNat := by
    rcases c.valid with low | high
    · exact .inl low
    · exact .inr high.1
  have notHigh : isHighSurrogate c.toNat = false := by
    simp only [isHighSurrogate, Bool.and_eq_false_iff, decide_eq_false_iff_not]
    omega
  have notLow : isLowSurrogate c.toNat = false := by
    simp only [isLowSurrogate, Bool.and_eq_false_iff, decide_eq_false_iff_not]
    omega
  rw [charsOf_cons notHigh, charOf, isSurrogate, notHigh, notLow]
  simp [Char.ofNat_toNat]

theorem charsOf_codesOf (c : Char) (codes : List Nat) :
    charsOf (codesOf escapes c ++ codes) = c :: charsOf codes := by
  unfold codesOf
  split
  · unfold unitsOf
    split
    · exact charsOf_codePoint c codes
    · rename_i beyond
      have bound := toNat_lt c
      have joined : 0x10000 + (0xD800 + (c.toNat - 0x10000) / 0x400 - 0xD800) * 0x400 +
          (0xDC00 + (c.toNat - 0x10000) % 0x400 - 0xDC00) = c.toNat := by
        omega
      rw [List.cons_append, List.cons_append, List.nil_append, charsOf_pair, joined,
        Char.ofNat_toNat]
      · simp only [isHighSurrogate, Bool.and_eq_true, decide_eq_true_eq]
        omega
      · simp only [isLowSurrogate, Bool.and_eq_true, decide_eq_true_eq]
        omega
  · exact charsOf_codePoint c codes

theorem charsOf_flatMap_codesOf (text : List Char) :
    charsOf (text.flatMap (codesOf escapes)) = text := by
  induction text with
  | nil => rfl
  | cons c others inductionHypothesis =>
      rw [List.flatMap_cons, charsOf_codesOf, inductionHypothesis]

theorem readString_writeString (escapes : Char → Bool) (text : String) (rest : List Char) :
    readString (text.toList.flatMap (writeChar escapes) ++ '"' :: rest) = .ok (text, rest) := by
  rw [readString, readCodes_writeChars]
  simp [Reading.andThen, charsOf_flatMap_codesOf]

/-! ### Whole numbers -/

theorem isAsciiDigit_of_mem_toDigits {n : Nat} {c : Char} (member : c ∈ Nat.toDigits 10 n) :
    isAsciiDigit c = true :=
  Nat.isDigit_of_mem_toDigits (by decide) (by decide) member

theorem digitsValue_toDigits (n : Nat) : digitsValue (Nat.toDigits 10 n) = n := by
  rw [digitsValue, ← Nat.ofDigitChars_eq_foldl, Nat.ofDigitChars_ten_toDigits]

/-- A number begins with a digit. -/
theorem toDigits_eq_cons (n : Nat) :
    ∃ digit others, Nat.toDigits 10 n = digit :: others ∧ isAsciiDigit digit = true := by
  have nonempty : Nat.toDigits 10 n ≠ [] := Nat.toDigits_ne_nil
  obtain ⟨digit, others, digits⟩ := List.exists_cons_of_ne_nil nonempty
  exact ⟨digit, others, digits, isAsciiDigit_of_mem_toDigits (n := n) (by simp [digits])⟩

/-- A positive number does not begin with a zero. -/
theorem head?_toDigits_ne_zero {n : Nat} (positive : 0 < n) :
    (Nat.toDigits 10 n).head? ≠ some '0' := by
  induction n using Nat.strongRecOn with
  | ind n inductionHypothesis =>
      by_cases single : n < 10
      · have digits : ∀ digit < 10, 0 < digit → Nat.digitChar digit ≠ '0' := by decide
        rw [Nat.toDigits_of_lt_base single]
        simpa using digits n single positive
      · have leads := inductionHypothesis (n / 10) (by omega) (by omega)
        obtain ⟨c, others, digits, -⟩ := toDigits_eq_cons (n / 10)
        rw [Nat.toDigits_of_base_le (by decide) (Nat.not_lt.mp single)]
        rw [digits] at leads ⊢
        exact leads

/-- Whether a character behind digits would belong to their number. -/
def continuesNumber (c : Char) : Bool := isAsciiDigit c || c = '.' || c = 'e' || c = 'E'

/-- What follows a value does not go on with it. -/
def Ends (rest : List Char) : Prop := ∀ c ∈ rest.head?, continuesNumber c = false

variable {rest : List Char}

theorem Ends.isAsciiDigit_eq_false (ends : Ends rest) :
    ∀ c ∈ rest.head?, isAsciiDigit c = false := by
  intro c first
  have other := ends c first
  simp only [continuesNumber, Bool.or_eq_false_iff] at other
  exact other.1.1.1

theorem readFraction_of_ends (ends : Ends rest) : readFraction rest = (none, rest) := by
  unfold readFraction
  split
  · have other := ends '.' rfl
    cases other
  · rfl

theorem readExponent_of_ends (ends : Ends rest) : readExponent rest = (none, rest) := by
  cases rest with
  | nil => rfl
  | cons mark behind =>
      have other := ends mark rfl
      simp only [continuesNumber, Bool.or_eq_false_iff, decide_eq_false_iff_not] at other
      rw [readExponent, if_neg (not_or.mpr ⟨other.1.2, other.2⟩)]

theorem readWhole_toDigits (n : Nat) (ends : Ends rest) :
    readWhole (Nat.toDigits 10 n ++ rest) = some (Nat.toDigits 10 n, rest) := by
  rcases Nat.eq_zero_or_pos n with rfl | positive
  · rfl
  · obtain ⟨c, others, digits, -⟩ := toDigits_eq_cons n
    have notZero : c ≠ '0' := by
      rintro rfl
      exact head?_toDigits_ne_zero positive (by rw [digits]; rfl)
    have areDigits : ∀ digit ∈ c :: others, isAsciiDigit digit = true := by
      intro digit member
      exact isAsciiDigit_of_mem_toDigits (digits ▸ member)
    have othersDigits : ∀ digit ∈ others, isAsciiDigit digit = true :=
      fun digit member => areDigits digit (List.mem_cons_of_mem c member)
    rw [digits, List.cons_append]
    simp [readWhole, areDigits c (by simp), spanAsciiDigits,
      takeWhile_run othersDigits ends.isAsciiDigit_eq_false,
      dropWhile_run othersDigits ends.isAsciiDigit_eq_false]

theorem readNumber_toDigits (start : List Char) (negative : Bool) {n : Nat}
    (few : (Nat.toDigits 10 n).length ≤ Text.digitLimit) (ends : Ends rest) :
    readNumber start negative (Nat.toDigits 10 n ++ rest) =
      .ok (.integer (if negative then -(n : Int) else n : Int), rest) := by
  simp [readNumber, readWhole_toDigits n ends, readFraction_of_ends ends,
    readExponent_of_ends ends, Nat.not_lt.mpr few, digitsValue_toDigits]

/-- No word stands where a digit follows after less than three characters. -/
theorem readWord?_eq_none (lead rest : List Char) {digit : Char} (short : lead.length < 3)
    (isDigit : isAsciiDigit digit = true) : readWord? (lead ++ digit :: rest) = none := by
  cases found : readWord? (lead ++ digit :: rest) with
  | none => rfl
  | some reading =>
      obtain ⟨word, known, split⟩ := readWord?_eq_some found
      have long : ∀ entry ∈ valueWords, 3 ≤ entry.1.length := by decide
      have noDigits : ∀ entry ∈ valueWords, ∀ c ∈ entry.1, isAsciiDigit c = false := by
        simp [valueWords, isAsciiDigit]
      have covers : lead.length < word.length := Nat.lt_of_lt_of_le short (long _ known)
      have place : (lead ++ digit :: rest)[lead.length]? = some digit := by simp
      rw [split, List.getElem?_append_left covers] at place
      rw [noDigits _ known digit (List.mem_of_getElem? place)] at isDigit
      cases isDigit

def writeInteger (value : Int) : List Char := (toString value).toList

theorem writeInteger_natCast (n : Nat) : writeInteger n = Nat.toDigits 10 n :=
  Nat.toList_repr

theorem writeInteger_negSucc (n : Nat) :
    writeInteger (Int.negSucc n) = '-' :: Nat.toDigits 10 (n + 1) := by
  simp [writeInteger, toString, Int.repr]

theorem readScalar_writeInteger {value : Int}
    (few : (Nat.toDigits 10 value.natAbs).length ≤ Text.digitLimit) (ends : Ends rest) :
    readScalar (writeInteger value ++ rest) = .ok (.integer value, rest) := by
  cases value with
  | ofNat n =>
      obtain ⟨digit, others, digits, isDigit⟩ := toDigits_eq_cons n
      have noWord := readWord?_eq_none [] (others ++ rest) (by decide) isDigit
      have notMinus : digit ≠ '-' := by
        rintro rfl
        cases isDigit
      have read := readNumber_toDigits (digit :: (others ++ rest)) false (n := n) few ends
      rw [digits] at read
      simp only [List.nil_append] at noWord
      rw [Int.ofNat_eq_natCast, writeInteger_natCast, digits, List.cons_append]
      simpa [readScalar, noWord, notMinus] using read
  | negSucc n =>
      obtain ⟨digit, others, digits, isDigit⟩ := toDigits_eq_cons (n + 1)
      have noWord := readWord?_eq_none ['-'] (others ++ rest) (by decide) isDigit
      have read := readNumber_toDigits ('-' :: digit :: (others ++ rest)) true (n := n + 1) few ends
      rw [digits] at read
      simp only [List.cons_append, List.nil_append] at noWord
      rw [writeInteger_negSucc, digits, List.cons_append, List.cons_append, readScalar, noWord,
        Int.negSucc_eq]
      simpa using read

/-! ### Values -/

/-- Characters that may stand between the parts of a value. -/
abbrev Gap := { spacing : List Char // ∀ c ∈ spacing, isSpacing c = true }

/-- How the text of a value is set. -/
structure Style where
  afterOpening : Gap
  beforeClosing : Gap
  beforeComma : Gap
  afterComma : Gap
  beforeColon : Gap
  afterColon : Gap
  /-- The characters of strings that are written by hexadecimal digits although they need
  not be. -/
  escapes : Char → Bool

def writeFlag (value : Bool) : List Char := if value then "true".toList else "false".toList

namespace Style

variable (style : Style)

/-- What stands between two parts of a composed value. -/
def separator : List Char := style.beforeComma ++ ',' :: style.afterComma

/-- The name of a member with its colon. -/
def writeName (name : String) : List Char :=
  writeString style.escapes name ++ (style.beforeColon ++ ':' :: style.afterColon)

mutual
def write : Value → List Char
  | .null => "null".toList
  | .flag value => writeFlag value
  | .integer number => writeInteger number.value
  | .float value => value.text.toList
  | .text value => writeString style.escapes value
  | .array items => '[' :: style.afterOpening ++ writeItems items
  | .object members => '\x7b' :: style.afterOpening ++ writeMembers members

/-- Items up to the closing bracket. -/
def writeItems : List Value → List Char
  | [] => [']']
  | item :: rest =>
      write item ++
        if rest.isEmpty then style.beforeClosing ++ [']'] else style.separator ++ writeItems rest

/-- Members up to the closing brace. -/
def writeMembers : List (String × Value) → List Char
  | [] => ['\x7d']
  | (name, value) :: rest =>
      style.writeName name ++
        (write value ++
          if rest.isEmpty then style.beforeClosing ++ ['\x7d']
          else style.separator ++ writeMembers rest)
end

end Style

mutual
/-- Whether nothing of a value is lost in its text: it holds no floating-point number and no
object with two members of one name. -/
def Value.IsExact : Value → Prop
  | .null | .flag _ | .integer _ | .text _ => True
  | .float _ => False
  | .array items => AreExact items
  | .object members => MembersExact members ∧ (members.map Prod.fst).Nodup

def AreExact : List Value → Prop
  | [] => True
  | item :: rest => item.IsExact ∧ AreExact rest

def MembersExact : List (String × Value) → Prop
  | [] => True
  | (_, value) :: rest => value.IsExact ∧ MembersExact rest
end

theorem areExact_of_forall {items : List Value} (exact : ∀ item ∈ items, item.IsExact) :
    AreExact items := by
  induction items with
  | nil => trivial
  | cons item others inductionHypothesis =>
      exact ⟨exact item (by simp),
        inductionHypothesis fun other member => exact other (List.mem_cons_of_mem _ member)⟩

theorem membersExact_of_forall {members : List (String × Value)}
    (exact : ∀ member ∈ members, member.2.IsExact) : MembersExact members := by
  induction members with
  | nil => trivial
  | cons member others inductionHypothesis =>
      exact ⟨exact member (by simp),
        inductionHypothesis fun other later => exact other (List.mem_cons_of_mem _ later)⟩

/-! ### Objects -/

theorem setMember_of_notMem {name : String} {members : List (String × Value)}
    (absent : name ∉ members.map Prod.fst) (value : Value) :
    setMember name value members = members ++ [(name, value)] := by
  induction members with
  | nil => rfl
  | cons member others inductionHypothesis =>
      obtain ⟨different, notLater⟩ : name ≠ member.1 ∧ name ∉ others.map Prod.fst := by
        simpa using absent
      simp [setMember, different.symm, inductionHypothesis notLater]

/-- Members of different names stay as they are given. -/
theorem membersOf_eq {given : List (String × Value)} (distinct : (given.map Prod.fst).Nodup) :
    membersOf given = given := by
  have grows (members : List (String × Value))
      (apart : ((members ++ given).map Prod.fst).Nodup) :
      given.foldl (fun members member => setMember member.1 member.2 members) members =
        members ++ given := by
    clear distinct
    induction given generalizing members with
    | nil => simp
    | cons member others inductionHypothesis =>
        have absent : member.1 ∉ members.map Prod.fst := by
          intro present
          rw [List.map_append, List.nodup_append] at apart
          exact apart.2.2 member.1 present member.1 (by simp) rfl
        rw [List.foldl_cons, setMember_of_notMem absent,
          inductionHypothesis (members ++ [(member.1, member.2)]) (by simpa using apart)]
        simp
  exact grows [] (by simpa using distinct)

/-! ### Reading what was written -/

theorem skipSpacing_gap (gap : Gap) {c : Char} (solid : isSpacing c = false) (rest : List Char) :
    skipSpacing (gap ++ c :: rest) = c :: rest :=
  dropWhile_run gap.2 (by simpa using solid)

theorem continuesNumber_of_isSpacing {c : Char} (spacing : isSpacing c = true) :
    continuesNumber c = false := by
  simp only [isSpacing, Bool.or_eq_true, decide_eq_true_eq] at spacing
  rcases spacing with ((rfl | rfl) | rfl) | rfl <;> decide

theorem head?_gap (gap : Gap) {c first : Char} {rest : List Char}
    (begins : (gap ++ c :: rest).head? = some first) : isSpacing first = true ∨ first = c := by
  obtain ⟨spacing, areSpacing⟩ := gap
  cases spacing with
  | nil => exact .inr (by simpa using begins.symm)
  | cons space others =>
      obtain rfl : space = first := by simpa using begins
      exact .inl (areSpacing space (by simp))

theorem ends_gap (gap : Gap) {c : Char} (other : continuesNumber c = false) (rest : List Char) :
    Ends (gap ++ c :: rest) := by
  intro first begins
  rcases head?_gap gap begins with spacing | rfl
  · exact continuesNumber_of_isSpacing spacing
  · exact other

theorem readValue_array (fuel : Nat) (rest : List Char) {c : Char} {inside : List Char}
    (skipped : skipSpacing rest = c :: inside) (open' : c ≠ ']') :
    readValue (fuel + 1) ('[' :: rest) =
      (readItems fuel (c :: inside)).andThen fun items behind => .ok (.array items, behind) := by
  simp [readValue, skipped, open']

theorem readValue_object (fuel : Nat) (rest : List Char) {c : Char} {inside : List Char}
    (skipped : skipSpacing rest = c :: inside) (open' : c ≠ '\x7d') :
    readValue (fuel + 1) ('\x7b' :: rest) =
      (readMembers fuel (c :: inside)).andThen fun members behind =>
        .ok (.object (membersOf members), behind) := by
  simp [readValue, skipped, open']

theorem isSpacing_of_isAsciiDigit {c : Char} (digit : isAsciiDigit c = true) :
    isSpacing c = false := by
  by_contra spacing
  have notDigit : isAsciiDigit c = false := by
    have other := continuesNumber_of_isSpacing (by simpa using spacing)
    simp only [continuesNumber, Bool.or_eq_false_iff] at other
    exact other.1.1.1
  rw [notDigit] at digit
  cases digit

/-- A whole number begins with a minus or a digit. -/
theorem writeInteger_eq_cons (value : Int) :
    ∃ c others, writeInteger value = c :: others ∧ (c = '-' ∨ isAsciiDigit c = true) := by
  cases value with
  | ofNat n =>
      obtain ⟨digit, others, digits, isDigit⟩ := toDigits_eq_cons n
      exact ⟨digit, others, (writeInteger_natCast n).trans digits, .inr isDigit⟩
  | negSucc n => exact ⟨'-', _, writeInteger_negSucc n, .inl rfl⟩

/-- What a character is not when a value begins with it. -/
structure LeadsValue (c : Char) : Prop where
  solid : isSpacing c = false
  notClosing : c ≠ ']'
  notMark : c ≠ '\uFEFF'

theorem leadsValue_of_isAsciiDigit {c : Char} (digit : isAsciiDigit c = true) : LeadsValue c where
  solid := isSpacing_of_isAsciiDigit digit
  notClosing := by
    rintro rfl
    cases digit
  notMark := by
    rintro rfl
    cases digit

theorem write_eq_cons (style : Style) {value : Value} (exact : value.IsExact) :
    ∃ c others, style.write value = c :: others ∧ LeadsValue c := by
  cases value with
  | null => exact ⟨_, _, rfl, by decide, by decide, by decide⟩
  | flag value => cases value <;> exact ⟨_, _, rfl, by decide, by decide, by decide⟩
  | text value => exact ⟨_, _, rfl, by decide, by decide, by decide⟩
  | array items => exact ⟨_, _, rfl, by decide, by decide, by decide⟩
  | object members => exact ⟨_, _, rfl, by decide, by decide, by decide⟩
  | float value => exact exact.elim
  | integer number =>
      obtain ⟨c, others, begins, lead⟩ := writeInteger_eq_cons number.value
      refine ⟨c, others, begins, ?_⟩
      rcases lead with rfl | digit
      · exact ⟨by decide, by decide, by decide⟩
      · exact leadsValue_of_isAsciiDigit digit

theorem readValue_writeInteger (number : Whole) {rest : List Char} (ends : Ends rest)
    (fuel : Nat) :
    readValue (fuel + 1) (writeInteger number.value ++ rest) = .ok (.integer number, rest) := by
  have read := readScalar_writeInteger number.few ends
  obtain ⟨c, others, begins, lead⟩ := writeInteger_eq_cons number.value
  rw [Whole.intCast_value] at read
  have scalar : c ≠ '"' ∧ c ≠ '[' ∧ c ≠ '\x7b' := by
    rcases lead with rfl | digit
    · decide
    · refine ⟨?_, ?_, ?_⟩ <;> (rintro rfl; cases digit)
  rw [begins, List.cons_append] at read ⊢
  simpa [readValue, scalar] using read

variable (style : Style)

/-- A written name is read, up to what stands behind the spacing. -/
theorem readName_writeName (name : String) {c : Char} (solid : isSpacing c = false)
    (rest : List Char) : readName (style.writeName name ++ c :: rest) = .ok (name, c :: rest) := by
  have read := readString_writeString style.escapes name
    (style.beforeColon ++ ':' :: (style.afterColon ++ c :: rest))
  have colon := skipSpacing_gap style.beforeColon (c := ':') (by decide)
    (style.afterColon ++ c :: rest)
  have behind := skipSpacing_gap style.afterColon solid rest
  simp only [Style.writeName, writeString, List.cons_append, List.append_assoc, List.nil_append,
    readName]
  rw [read]
  simp only [Reading.andThen, colon, behind]

theorem readName_member (name : String) {value : Value} (exact : value.IsExact)
    (rest : List Char) :
    readName (style.writeName name ++ (style.write value ++ rest)) =
      .ok (name, style.write value ++ rest) := by
  obtain ⟨c, others, begins, leads⟩ := write_eq_cons style exact
  rw [begins]
  exact readName_writeName style name leads.solid (others ++ rest)

theorem skipSpacing_separator (rest : List Char) :
    skipSpacing (style.separator ++ rest) = ',' :: (style.afterComma ++ rest) := by
  have comma := skipSpacing_gap style.beforeComma (c := ',') (by decide) (style.afterComma ++ rest)
  simpa [Style.separator] using comma

theorem length_separator_pos : 0 < style.separator.length := by
  simp only [Style.separator, List.length_append, List.length_cons]
  omega

theorem ends_separator (rest : List Char) : Ends (style.separator ++ rest) := by
  have ends := ends_gap style.beforeComma (c := ',') (by decide) (style.afterComma ++ rest)
  simpa [Style.separator] using ends

theorem readString_andThen (text : String) (rest : List Char) :
    (readString (text.toList.flatMap (writeChar style.escapes) ++ '"' :: rest)).andThen
        (fun value behind => (.ok (Value.text value, behind) : Reading Value)) =
      .ok (.text text, rest) := by
  rw [readString_writeString]
  rfl

/-- Items begin as the first of them does. -/
theorem writeItems_eq_cons {item : Value} (exact : item.IsExact) (others : List Value) :
    ∃ c rest, style.writeItems (item :: others) = c :: rest ∧ LeadsValue c := by
  obtain ⟨c, rest, begins, leads⟩ := write_eq_cons style exact
  rw [Style.writeItems, begins, List.cons_append]
  exact ⟨c, _, rfl, leads⟩

theorem writeMembers_eq_cons (member : String × Value) (others : List (String × Value)) :
    ∃ rest, style.writeMembers (member :: others) = '"' :: rest := ⟨_, rfl⟩

theorem skipSpacing_writeItems (gap : Gap) {item : Value} (exact : item.IsExact)
    (others : List Value) (rest : List Char) :
    skipSpacing (gap ++ (style.writeItems (item :: others) ++ rest)) =
      style.writeItems (item :: others) ++ rest := by
  obtain ⟨c, behind, begins, leads⟩ := writeItems_eq_cons style exact others
  rw [begins]
  exact skipSpacing_gap gap leads.solid (behind ++ rest)

theorem skipSpacing_writeMembers (gap : Gap) (member : String × Value)
    (others : List (String × Value)) (rest : List Char) :
    skipSpacing (gap ++ (style.writeMembers (member :: others) ++ rest)) =
      style.writeMembers (member :: others) ++ rest := by
  obtain ⟨behind, begins⟩ := writeMembers_eq_cons style member others
  rw [begins]
  exact skipSpacing_gap gap (by decide) (behind ++ rest)

/-- An array is read once its items are. -/
theorem readValue_writeArray {item : Value} {others : List Value} (exact : item.IsExact)
    {fuel : Nat} {rest : List Char}
    (items : readItems fuel (style.writeItems (item :: others) ++ rest) =
      .ok (item :: others, rest)) :
    readValue (fuel + 1) (style.write (.array (item :: others)) ++ rest) =
      .ok (.array (item :: others), rest) := by
  have skipped := skipSpacing_writeItems style style.afterOpening exact others rest
  obtain ⟨c, behind, begins, leads⟩ := writeItems_eq_cons style exact others
  rw [begins, List.cons_append] at skipped items
  rw [Style.write, List.append_assoc, List.cons_append, begins, List.cons_append,
    readValue_array fuel _ skipped leads.notClosing, items]
  rfl

/-- An object is read once its members are, if their names are different. -/
theorem readValue_writeObject {member : String × Value} {others : List (String × Value)}
    (distinct : ((member :: others).map Prod.fst).Nodup) {fuel : Nat} {rest : List Char}
    (members : readMembers fuel (style.writeMembers (member :: others) ++ rest) =
      .ok (member :: others, rest)) :
    readValue (fuel + 1) (style.write (.object (member :: others)) ++ rest) =
      .ok (.object (member :: others), rest) := by
  have skipped := skipSpacing_writeMembers style style.afterOpening member others rest
  obtain ⟨behind, begins⟩ := writeMembers_eq_cons style member others
  rw [begins, List.cons_append] at skipped members
  rw [Style.write, List.append_assoc, List.cons_append, begins, List.cons_append,
    readValue_object fuel _ skipped (by decide), members]
  simp only [Reading.andThen, membersOf_eq distinct]

/-! ### Values that were written -/

-- Each composed value, item and member takes one call of its own and one of what it
-- consists of, so two calls for each character are enough.
mutual
theorem readValue_write : (value : Value) → value.IsExact → (fuel : Nat) → (rest : List Char) →
    2 * (style.write value).length ≤ fuel + 1 → Ends rest →
      readValue (fuel + 1) (style.write value ++ rest) = .ok (value, rest)
  | .null, _, fuel, rest, _, _ => rfl
  | .flag true, _, fuel, rest, _, _ => rfl
  | .flag false, _, fuel, rest, _, _ => rfl
  | .integer number, _, fuel, rest, _, ends => readValue_writeInteger number ends fuel
  | .text value, _, fuel, rest, _, _ => by
      have read := readString_andThen style value rest
      simpa [Style.write, writeString, readValue] using read
  | .array [], _, fuel, rest, _, _ => by
      have closing := skipSpacing_gap style.afterOpening (c := ']') (by decide) rest
      simp [Style.write, Style.writeItems, readValue, closing]
  | .array (item :: others), exact, fuel, rest, enough, _ => by
      simp only [Style.write, List.length_append, List.length_cons] at enough
      obtain ⟨calls, rfl⟩ : ∃ calls, fuel = calls + 1 := ⟨fuel - 1, by omega⟩
      exact readValue_writeArray style exact.1
        (readItems_write (item :: others) (by simp) exact calls rest (by omega))
  | .object [], _, fuel, rest, _, _ => by
      have closing := skipSpacing_gap style.afterOpening (c := '\x7d') (by decide) rest
      simp [Style.write, Style.writeMembers, readValue, closing]
  | .object (member :: others), exact, fuel, rest, enough, _ => by
      simp only [Style.write, List.length_append, List.length_cons] at enough
      obtain ⟨calls, rfl⟩ : ∃ calls, fuel = calls + 1 := ⟨fuel - 1, by omega⟩
      exact readValue_writeObject style exact.2
        (readMembers_write (member :: others) (by simp) exact.1 calls rest (by omega))

theorem readItems_write : (items : List Value) → items ≠ [] → AreExact items → (fuel : Nat) →
    (rest : List Char) → 2 * (style.writeItems items).length ≤ fuel + 1 →
      readItems (fuel + 1) (style.writeItems items ++ rest) = .ok (items, rest)
  | [item], _, exact, fuel, rest, enough => by
      have closing := skipSpacing_gap style.beforeClosing (c := ']') (by decide) rest
      have ends := ends_gap style.beforeClosing (c := ']') (by decide) rest
      simp only [Style.writeItems, List.isEmpty_nil, if_true, List.length_append, List.length_cons]
        at enough
      obtain ⟨calls, rfl⟩ : ∃ calls, fuel = calls + 1 := ⟨fuel - 1, by omega⟩
      have value := readValue_write item exact.1 calls _ (by omega) ends
      simp only [Style.writeItems, List.isEmpty_nil, if_true, List.append_assoc, List.cons_append,
        List.nil_append, readItems, value, Reading.andThen, closing]
  | item :: next :: others, _, exact, fuel, rest, enough => by
      have skipped := skipSpacing_writeItems style style.afterComma exact.2.1 others rest
      have written : style.writeItems (item :: next :: others) =
          style.write item ++ (style.separator ++ style.writeItems (next :: others)) := rfl
      have separated := length_separator_pos style
      simp only [written, List.length_append] at enough
      obtain ⟨calls, rfl⟩ : ∃ calls, fuel = calls + 1 := ⟨fuel - 1, by omega⟩
      have value := readValue_write item exact.1 calls _ (by omega)
        (ends_separator style (style.writeItems (next :: others) ++ rest))
      have items := readItems_write (next :: others) (by simp) exact.2 calls rest (by omega)
      rw [written, List.append_assoc, List.append_assoc, readItems, value]
      simp only [Reading.andThen, skipSpacing_separator]
      rw [skipped, items]

theorem readMembers_write : (members : List (String × Value)) → members ≠ [] →
    MembersExact members → (fuel : Nat) → (rest : List Char) →
      2 * (style.writeMembers members).length ≤ fuel + 1 →
        readMembers (fuel + 1) (style.writeMembers members ++ rest) = .ok (members, rest)
  | [(name, value)], _, exact, fuel, rest, enough => by
      have closing := skipSpacing_gap style.beforeClosing (c := '\x7d') (by decide) rest
      have ends := ends_gap style.beforeClosing (c := '\x7d') (by decide) rest
      have written : style.writeMembers [(name, value)] =
          style.writeName name ++ (style.write value ++ (style.beforeClosing ++ ['\x7d'])) := rfl
      simp only [written, List.length_append, List.length_cons] at enough
      obtain ⟨calls, rfl⟩ : ∃ calls, fuel = calls + 1 := ⟨fuel - 1, by omega⟩
      have read := readValue_write value exact.1 calls _ (by omega) ends
      have named := readName_member style name exact.1 (style.beforeClosing ++ '\x7d' :: rest)
      simp only [written, List.append_assoc, List.cons_append, List.nil_append, readMembers, named,
        Reading.andThen, read, closing]
  | (name, value) :: next :: others, _, exact, fuel, rest, enough => by
      have skipped := skipSpacing_writeMembers style style.afterComma next others rest
      have written : style.writeMembers ((name, value) :: next :: others) =
          style.writeName name ++ (style.write value ++
            (style.separator ++ style.writeMembers (next :: others))) := rfl
      have separated := length_separator_pos style
      simp only [written, List.length_append] at enough
      obtain ⟨calls, rfl⟩ : ∃ calls, fuel = calls + 1 := ⟨fuel - 1, by omega⟩
      have read := readValue_write value exact.1 calls _ (by omega)
        (ends_separator style (style.writeMembers (next :: others) ++ rest))
      have named := readName_member style name exact.1
        (style.separator ++ (style.writeMembers (next :: others) ++ rest))
      have members := readMembers_write (next :: others) (by simp) exact.2 calls rest (by omega)
      rw [written, List.append_assoc, List.append_assoc, List.append_assoc, readMembers, named]
      simp only [Reading.andThen]
      rw [read]
      simp only [skipSpacing_separator]
      rw [skipped, members]
end

/-! ### Whole texts -/

/-- The text of a value with spacing around it. -/
def Style.print (before after : Gap) (value : Value) : String :=
  String.ofList (before ++ (style.write value ++ after))

theorem ends_of_isSpacing {spacing : List Char} (areSpacing : ∀ c ∈ spacing, isSpacing c = true) :
    Ends spacing :=
  fun c first => continuesNumber_of_isSpacing (areSpacing c (List.mem_of_mem_head? first))

theorem skipSpacing_eq_nil {spacing : List Char} (areSpacing : ∀ c ∈ spacing, isSpacing c = true) :
    skipSpacing spacing = [] := by
  rw [skipSpacing, List.dropWhile_eq_nil_iff]
  exact areSpacing

/-- A text is the value that was written, however it is set. -/
theorem parse_print (before after : Gap) {value : Value} (exact : value.IsExact) :
    parse (style.print before after value) = .ok value := by
  obtain ⟨c, others, begins, leads⟩ := write_eq_cons style exact
  have skipped : skipSpacing (before ++ (style.write value ++ after)) =
      style.write value ++ after := by
    rw [begins]
    exact skipSpacing_gap before leads.solid (others ++ after)
  have noMark : (before ++ (style.write value ++ after)).head? ≠ some '\uFEFF' := by
    intro marked
    rw [begins] at marked
    rcases head?_gap before marked with spacing | mark
    · cases spacing
    · exact leads.notMark mark.symm
  have read := readValue_write style value exact
    (2 * (before ++ (style.write value ++ after)).length + 1) after (by simp; omega)
    (ends_of_isSpacing after.2)
  rw [parse, Style.print, String.toList_ofList, readDocument_of_noMark noMark, skipped, read, atEnd,
    skipSpacing_eq_nil after.2]
  rfl

end Folio.Json
