import Folio.Proofs.Interchange
import Folio.Proofs.Search
import Mathlib.Order.Nat

/-!
# Which values are documents

A value that describes a document is told by its form alone: which members are there,
what kind of value each of them is, and which names its texts spell.  Reading accepts
exactly these values.  A value that is no text is shown in a notation of its own where a
name is wanted, and is never taken for one.  The first entry that is not acceptable is
the one that is blamed, whatever the other members hold.
-/

namespace Folio

open Json

/-! ### How values are shown that are no texts -/

namespace Text

/-- Whether a shown number, array or object may begin with a character. -/
def isLead (c : Char) : Bool := isAsciiDigit c || c = '-' || c = '[' || c = '\x7b'

theorem lowerChar_of_isLead {c : Char} (lead : isLead c = true) : lowerChar c = c := by
  simp only [isLead, Bool.or_eq_true, decide_eq_true_eq] at lead
  rcases lead with ((digit | rfl) | rfl) | rfl
  · have notKelvin : c ≠ '\u212A' := by
      rintro rfl
      cases digit
    have notUpper : ¬ (c.val ≥ 'A'.val ∧ c.val ≤ 'Z'.val) := by
      rintro ⟨high, -⟩
      obtain ⟨-, low⟩ : '0' ≤ c ∧ c ≤ '9' := by simpa [isAsciiDigit] using digit
      have order : 'A' ≤ '9' := Char.le_trans (b := c) high low
      exact absurd order (by decide)
    rw [lowerChar, if_neg notKelvin]
    exact dif_neg notUpper
  · decide
  · decide
  · decide

/-- A text begins with a digit, a minus or a bracket. -/
def IsLed (s : List Char) : Prop := ∃ c rest, s = c :: rest ∧ isLead c = true

theorem isLed_cons {c : Char} (lead : isLead c = true) (rest : List Char) : IsLed (c :: rest) :=
  ⟨c, rest, rfl, lead⟩

theorem isLed_toDigits (n : Nat) : IsLed (Nat.toDigits 10 n) := by
  obtain ⟨digit, others, digits, isDigit⟩ := toDigits_eq_cons n
  rw [digits]
  apply isLed_cons
  simp [isLead, isDigit]

/-- Lowering the letters of a text leaves a lead that is no letter. -/
theorem isLed_lower {s : String} (led : IsLed s.toList) : IsLed (lower s).toList := by
  obtain ⟨c, rest, begins, lead⟩ := led
  rw [lower, String.toList_ofList, begins, List.map_cons, lowerChar_of_isLead lead]
  exact isLed_cons lead _

end Text

open Text

namespace Decimal

theorem isLed_positional {digits : List Char} (led : IsLed digits) (leading : Int) :
    IsLed (positional digits leading) := by
  unfold positional
  split
  · exact isLed_cons (by decide) _
  · obtain ⟨c, rest, rfl, lead⟩ := led
    exact isLed_cons lead _

theorem isLed_scientific {digits : List Char} (led : IsLed digits) (leading : Int) :
    IsLed (scientific digits leading) := by
  obtain ⟨c, rest, rfl, lead⟩ := led
  exact isLed_cons lead _

theorem isLed_magnitudeText (significand : Nat) (exponent : Int) :
    IsLed (magnitudeText significand exponent) := by
  unfold magnitudeText
  dsimp only
  split
  · exact isLed_positional (isLed_toDigits _) _
  · exact isLed_scientific (isLed_toDigits _) _

/-- A floating-point number is shown by a word or by digits. -/
theorem isLed_text (value : Binary64) :
    value.text ∈ ["nan", "inf"] ∨ IsLed value.text.toList := by
  cases value with
  | notANumber => exact .inl (by decide)
  | infinite negative =>
      cases negative with
      | false => exact .inl (by decide)
      | true => exact .inr (isLed_cons (c := '-') (by decide) _)
  | finite negative significand exponent =>
      right
      have size : IsLed (if significand = 0 then "0.0"
          else String.ofList (magnitudeText significand exponent)).toList := by
        split
        · exact isLed_cons (c := '0') (by decide) _
        · rw [String.toList_ofList]
          exact isLed_magnitudeText significand exponent
      cases negative with
      | false => simpa [Binary64.text] using size
      | true =>
          rw [Binary64.text, String.toList_append]
          exact isLed_cons (c := '-') (by decide) _

end Decimal

/-- What stands for a value that is no text where a name is looked for: nothing, a truth
value, a number that is not finite, or something that begins like no word. -/
theorem Json.Value.lower_asText {given : Value} (notText : ∀ text, given ≠ .text text) :
    given = .null ∧ lower given.asText = "none" ∨
      lower given.asText ∈ ["true", "false", "nan", "inf"] ∨
        IsLed (lower given.asText).toList := by
  cases given with
  | null => exact .inl ⟨rfl, by decide⟩
  | flag value => cases value <;> exact .inr (.inl (by decide))
  | text value => exact absurd rfl (notText value)
  | integer number =>
      right; right
      apply isLed_lower
      obtain ⟨c, others, begins, lead⟩ := writeInteger_eq_cons number.value
      have shown : (Value.integer number).asText.toList = c :: others := begins
      rw [shown]
      apply isLed_cons
      rcases lead with rfl | digit
      · decide
      · simp [isLead, digit]
  | float value =>
      right
      rcases Decimal.isLed_text value with word | led
      · left
        have lowered : ∀ word ∈ ["nan", "inf"], lower word ∈ ["true", "false", "nan", "inf"] := by
          decide
        exact lowered _ word
      · right
        exact isLed_lower led
  | array items =>
      right; right
      apply isLed_lower
      rw [Value.asText, Value.shown, String.toList_append, String.toList_append]
      · exact isLed_cons (c := '[') (by decide) _
      · simp
  | object members =>
      right; right
      apply isLed_lower
      rw [Value.asText, Value.shown, String.toList_append, String.toList_append]
      · exact isLed_cons (c := '\x7b') (by decide) _
      · simp

/-! ### Names -/

/-- A name that is looked up among names of things is the name of what is found. -/
theorem eq_name_of_lookup {Thing : Type} {name : Thing → String}
    {names : List (String × Thing)} (named : ∀ entry ∈ names, entry.1 = name entry.2)
    {given : String} {thing : Thing} (found : names.lookup given = some thing) :
    given = name thing := by
  obtain ⟨before, after, split, -⟩ := List.lookup_eq_some_iff.mp found
  apply named (given, thing)
  simp [split]

theorem DirectiveKind.ofName?_eq_some_iff (given : String) (kind : DirectiveKind) :
    ofName? given = some kind ↔ given = kind.name := by
  constructor
  · exact eq_name_of_lookup (by decide)
  · rintro rfl
    exact ofName?_name kind

theorem Destination.ofName?_eq_some_iff (given : String) (destination : Destination) :
    ofName? given = some destination ↔ given = destination.name := by
  constructor
  · exact eq_name_of_lookup (by decide)
  · rintro rfl
    exact ofName?_name destination

theorem Alignment.ofName?_eq_some_iff (given : String) (alignment : Alignment) :
    ofName? given = some alignment ↔ given = alignment.name := by
  constructor
  · exact eq_name_of_lookup (by decide)
  · rintro rfl
    exact ofName?_name alignment

namespace Document

/-- A value that spells the name of something: a text, in letters of either case. -/
def Spells {Thing : Type} (name : Thing → String) (given : Value) (thing : Thing) : Prop :=
  ∃ text, given = .text text ∧ lower text = name thing

/-- A name that no value is shown as, but a text that spells it. -/
def IsDistinct (name : String) : Prop :=
  name ∉ ["true", "false", "nan", "inf"] ∧ ¬ IsLed name.toList

theorem isDistinct_of_head {name : String} (absent : name ∉ ["true", "false", "nan", "inf"])
    (head : name.toList.head?.any isLead = false) : IsDistinct name := by
  refine ⟨absent, ?_⟩
  rintro ⟨c, rest, begins, lead⟩
  simp [begins, lead] at head

/-- Where names are told apart from what values are shown as, only a text is read as
one. -/
theorem readName_eq_ok_iff {Thing : Type} {ofName? : String → Option Thing}
    {name : Thing → String} (named : ∀ given thing, ofName? given = some thing ↔ given = name thing)
    (distinct : ∀ thing, IsDistinct (name thing)) (vocabulary : Vocabulary) {given : Value}
    (present : given = .null → ∀ thing, name thing ≠ "none") (thing : Thing) :
    readName ofName? vocabulary given = .ok thing ↔ Spells name given thing := by
  have reads : readName ofName? vocabulary given = .ok thing ↔
      lower given.asText = name thing := by
    rw [← named, readName]
    cases ofName? (lower given.asText) <;> simp
  rw [reads]
  constructor
  · intro lowered
    by_contra other
    have notText : ∀ text, given ≠ .text text := by
      rintro text rfl
      exact other ⟨text, rfl, lowered⟩
    rcases Value.lower_asText notText with ⟨isNull, none⟩ | word | led
    · exact present isNull thing (lowered.symm.trans none)
    · exact (distinct thing).1 (lowered ▸ word)
    · exact (distinct thing).2 (lowered ▸ led)
  · rintro ⟨text, rfl, lowered⟩
    exact lowered

theorem readKind_eq_ok_iff (given : Value) (kind : DirectiveKind) :
    readName DirectiveKind.ofName? .lineTypes given = .ok kind ↔
      Spells DirectiveKind.name given kind := by
  apply readName_eq_ok_iff DirectiveKind.ofName?_eq_some_iff
  · intro kind
    cases kind <;> exact isDistinct_of_head (by decide) (by decide)
  · intro _ kind
    cases kind <;> decide

theorem readDestination_eq_ok_iff (given : Value) (destination : Destination) :
    readName Destination.ofName? .destinations given = .ok destination ↔
      Spells Destination.name given destination := by
  apply readName_eq_ok_iff Destination.ofName?_eq_some_iff
  · intro destination
    cases destination <;> exact isDistinct_of_head (by decide) (by decide)
  · intro _ destination
    cases destination <;> decide

/-- A missing alignment is not read by its name, so that it may well be shown as one. -/
theorem readAlignmentName_eq_ok_iff {given : Value} (isTrue : given.isTrue = true)
    (alignment : Alignment) :
    readName Alignment.ofName? .alignments given = .ok alignment ↔
      Spells Alignment.name given alignment := by
  apply readName_eq_ok_iff Alignment.ofName?_eq_some_iff
  · intro alignment
    cases alignment <;> exact isDistinct_of_head (by decide) (by decide)
  · rintro rfl
    cases isTrue

theorem Spells.unique {given : Value} {kind other : DirectiveKind}
    (first : Spells DirectiveKind.name given kind)
    (second : Spells DirectiveKind.name given other) : kind = other := by
  have read := (readKind_eq_ok_iff given kind).mpr first
  rw [(readKind_eq_ok_iff given other).mpr second] at read
  exact (Except.ok.inj read).symm

/-! ### Entries -/

/-- What may be given as the content of a directive. -/
def IsContent : Value → Prop
  | .null | .text _ | .integer _ | .flag _ => True
  | .float _ | .array _ | .object _ => False

/-- An object with a type describes a directive.  An alignment that counts as false is
none, and only a directive that redirects needs a destination. -/
structure IsDirective (type : Value) (members : List (String × Value)) : Prop where
  kind : ∃ kind, Spells DirectiveKind.name type kind
  content : ∀ content, members.lookup "content" = some content → IsContent content
  alignment :
    ∀ given, members.lookup "align" = some given → given.isTrue = true →
      ∃ alignment, Spells Alignment.name given alignment
  destination :
    Spells DirectiveKind.name type .destination →
      ∃ given destination, members.lookup "destination" = some given ∧
        Spells Destination.name given destination

/-- An object without a type describes a text run. -/
def IsRun (members : List (String × Value)) : Prop :=
  ∀ given, members.lookup "text" = some given → ∃ text, given = .text text

/-- An entry that describes a line. -/
def IsEntry : Value → Prop
  | .object members =>
      match members.lookup "type" with
      | some type => IsDirective type members
      | none => IsRun members
  | _ => False

/-- What is wanted of a member holds of the value taken for it exactly when it holds of
the value given for it, provided that it holds of the value taken when none is given. -/
theorem memberOr_iff (Wanted : Value → Prop) (absent : Value) (default : Wanted absent)
    (members : List (String × Value)) (name : String) :
    Wanted (memberOr members name absent) ↔
      ∀ given, members.lookup name = some given → Wanted given := by
  rw [memberOr]
  cases members.lookup name with
  | none => simp [default]
  | some given => simp

theorem exists_bind_eq_ok_iff {Cause First Result : Type} (outcome : Except Cause First)
    (next : First → Except Cause Result) :
    (∃ result, (outcome >>= next) = .ok result) ↔
      ∃ first, outcome = .ok first ∧ ∃ result, next first = .ok result := by
  simp only [bind_eq_ok_iff, exists_comm, exists_and_left]

theorem exists_map_eq_ok_iff {Cause First Result : Type} (outcome : Except Cause First)
    (change : First → Result) :
    (∃ result, outcome.map change = .ok result) ↔ ∃ first, outcome = .ok first := by
  cases outcome <;> simp [Except.map]

theorem exists_readContent_iff (given : Value) :
    (∃ content, readContent given = .ok content) ↔ IsContent given := by
  cases given <;> simp [readContent, IsContent]

theorem exists_readAlignment_iff (given : Value) :
    (∃ alignment, readAlignment given = .ok alignment) ↔
      (given.isTrue = true → ∃ alignment, Spells Alignment.name given alignment) := by
  unfold readAlignment
  split
  · rename_i isTrue
    simp only [readAlignmentName_eq_ok_iff isTrue, isTrue, forall_const]
  · rename_i isFalse
    simp [isFalse]

theorem exists_readTarget_iff (kind : DirectiveKind) (members : List (String × Value)) :
    (∃ target, readTarget kind members = .ok target) ↔
      (kind = .destination → ∃ given destination, members.lookup "destination" = some given ∧
        Spells Destination.name given destination) := by
  unfold readTarget
  split
  · rename_i redirects
    cases members.lookup "destination" with
    | none => simp [redirects]
    | some given =>
        simp only [exists_map_eq_ok_iff, readDestination_eq_ok_iff, redirects, forall_const,
          Option.some.injEq, exists_and_left, exists_eq_left']
  · rename_i other
    simp [other]

theorem exists_readDirective_iff (type : Value) (members : List (String × Value)) :
    (∃ line, readDirective type members = .ok line) ↔ IsDirective type members := by
  have content := memberOr_iff IsContent .null trivial members "content"
  have alignment := memberOr_iff
    (fun given => given.isTrue = true → ∃ alignment, Spells Alignment.name given alignment)
    .null (by intro isTrue; cases isTrue) members "align"
  have parts : (∃ line, readDirective type members = .ok line) ↔
      ∃ kind, Spells DirectiveKind.name type kind ∧
        (∃ content, readContent (memberOr members "content" .null) = .ok content) ∧
        (∃ target, readTarget kind members = .ok target) ∧
        ∃ alignment, readAlignment (memberOr members "align" .null) = .ok alignment := by
    simp only [readDirective, exists_bind_eq_ok_iff, readKind_eq_ok_iff, pure, Except.pure,
      Except.ok.injEq, exists_eq', and_true, exists_and_right]
  rw [parts]
  simp only [exists_readContent_iff, exists_readTarget_iff, exists_readAlignment_iff, content,
    alignment]
  constructor
  · rintro ⟨kind, spelt, isContent, target, isAlignment⟩
    exact ⟨⟨kind, spelt⟩, isContent, isAlignment,
      fun redirects => target (spelt.unique redirects)⟩
  · rintro ⟨⟨kind, spelt⟩, isContent, isAlignment, destination⟩
    refine ⟨kind, spelt, isContent, ?_, isAlignment⟩
    rintro rfl
    exact destination spelt

theorem exists_readRun_iff (members : List (String × Value)) :
    (∃ line, readRun members = .ok line) ↔ IsRun members := by
  have text := memberOr_iff (fun given => ∃ text, given = .text text) (.text "") ⟨"", rfl⟩
    members "text"
  rw [IsRun, ← text, readRun]
  cases memberOr members "text" (.text "") <;> simp

/-- A line is read from an entry exactly when the entry describes one. -/
theorem exists_readLine_iff (entry : Value) :
    (∃ line, readLine entry = .ok line) ↔ IsEntry entry := by
  cases entry with
  | object members =>
      simp only [readLine, IsEntry]
      cases members.lookup "type" with
      | none => simp only [exists_map_eq_ok_iff, exists_readRun_iff]
      | some type => simp only [exists_map_eq_ok_iff, exists_readDirective_iff]
  | null | flag | integer | float | text | array => simp [readLine, IsEntry]

/-! ### Lines -/

/-- The numbers of the entries that describe no line. -/
def faultyEntries (entries : List Value) : Set Nat :=
  {index | ∃ entry, entries[index]? = some entry ∧ ¬ IsEntry entry}

theorem exists_readLines_of_entries (number : Nat) {entries : List Value}
    (acceptable : ∀ entry ∈ entries, IsEntry entry) :
    ∃ lines, readLines number entries = .ok lines := by
  induction entries generalizing number with
  | nil => exact ⟨[], rfl⟩
  | cons entry rest inductionHypothesis =>
      obtain ⟨line, read⟩ := (exists_readLine_iff entry).mpr (acceptable entry List.mem_cons_self)
      obtain ⟨lines, following⟩ := inductionHypothesis (number + 1) fun other member =>
        acceptable other (List.mem_cons_of_mem entry member)
      refine ⟨line :: lines, ?_⟩
      rw [readLines, read, mapError_ok, following]
      rfl

/-- Entries in front that can be read do not keep a later one from being blamed, and
none behind it is looked at. -/
theorem readLines_of_fault (number : Nat) {earlier : List Value}
    (acceptable : ∀ entry ∈ earlier, IsEntry entry) {entry : Value} (fault : ¬ IsEntry entry)
    (later : List Value) :
    ∃ cause, readLines number (earlier ++ entry :: later) =
      .error ⟨cause, some (number + earlier.length)⟩ := by
  induction earlier generalizing number with
  | nil =>
      cases read : readLine entry with
      | ok line => exact absurd ((exists_readLine_iff entry).mp ⟨line, read⟩) fault
      | error cause =>
          refine ⟨cause, ?_⟩
          rw [List.nil_append, readLines, read, mapError_error]
          rfl
  | cons first rest inductionHypothesis =>
      obtain ⟨line, read⟩ := (exists_readLine_iff first).mpr (acceptable first List.mem_cons_self)
      obtain ⟨cause, blamed⟩ := inductionHypothesis (number + 1) fun other member =>
        acceptable other (List.mem_cons_of_mem first member)
      have place : number + 1 + rest.length = number + (first :: rest).length := by
        rw [List.length_cons]
        omega
      refine ⟨cause, ?_⟩
      rw [List.cons_append, readLines, read, mapError_ok, ← place]
      exact congrArg (fun following => following >>= fun lines => pure (line :: lines)) blamed

theorem readLines_of_isLeast {entries : List Value} {index : Nat}
    (least : IsLeast (faultyEntries entries) index) :
    ∃ cause, readLines 0 entries = .error ⟨cause, some index⟩ := by
  obtain ⟨⟨entry, found, fault⟩, first⟩ := least
  obtain ⟨earlier, later, rfl, rfl⟩ := Markup.split_of_getElem? found
  have acceptable : ∀ other ∈ earlier, IsEntry other := by
    intro other member
    by_contra faulty
    obtain ⟨position, bound, rfl⟩ := List.getElem_of_mem member
    have inFront : (earlier ++ entry :: later)[position]? = some earlier[position] := by
      rw [List.getElem?_append_left bound, List.getElem?_eq_getElem bound]
    have after : earlier.length ≤ position := first ⟨_, inFront, faulty⟩
    omega
  have blamed := readLines_of_fault 0 acceptable fault later
  rwa [Nat.zero_add] at blamed

/-- Either all entries describe lines, or there is a first one that does not. -/
theorem entries_cases (entries : List Value) :
    (∀ entry ∈ entries, IsEntry entry) ∨ ∃ index, IsLeast (faultyEntries entries) index := by
  classical
  by_cases acceptable : ∀ entry ∈ entries, IsEntry entry
  · exact .inl acceptable
  · right
    push Not at acceptable
    obtain ⟨entry, member, fault⟩ := acceptable
    obtain ⟨position, bound, rfl⟩ := List.getElem_of_mem member
    have faulty : ∃ index, index ∈ faultyEntries entries :=
      ⟨position, _, List.getElem?_eq_getElem bound, fault⟩
    exact ⟨Nat.find faulty, Nat.isLeast_find faulty⟩

theorem exists_readLines_iff (entries : List Value) :
    (∃ lines, readLines 0 entries = .ok lines) ↔ ∀ entry ∈ entries, IsEntry entry := by
  constructor
  · rintro ⟨lines, read⟩
    rcases entries_cases entries with acceptable | ⟨index, least⟩
    · exact acceptable
    · obtain ⟨cause, blamed⟩ := readLines_of_isLeast least
      rw [read] at blamed
      cases blamed
  · exact exists_readLines_of_entries 0

/-! ### Documents -/

/-- The values of a metadata term: a text, or an array of texts. -/
def IsTerm : Value → Prop
  | .text _ => True
  | .array items => ∀ item ∈ items, ∃ text, item = .text text
  | _ => False

def IsMetadata : Value → Prop
  | .object members => ∀ term ∈ members, IsTerm term.2
  | _ => False

/-- A member of a value; only an object has any. -/
def member? : Value → String → Option Value
  | .object members, name => members.lookup name
  | _, _ => none

/-- The entries that a value gives for lines: its own items, those of a member, or none
when it is an object without that member. -/
inductive GivesEntries : Value → List Value → Prop
  | items (entries : List Value) : GivesEntries (.array entries) entries
  | member {members : List (String × Value)} {entries : List Value}
      (given : members.lookup "lines" = some (.array entries)) :
      GivesEntries (.object members) entries
  | none {members : List (String × Value)} (absent : members.lookup "lines" = none) :
      GivesEntries (.object members) []

/-- A value that describes a document. -/
structure IsDocument (source : Value) : Prop where
  lines : ∃ entries, GivesEntries source entries ∧ ∀ entry ∈ entries, IsEntry entry
  metadata : ∀ given, member? source "metadata" = some given → IsMetadata given
  features : ∀ given, member? source "features" = some given → ∃ members, given = .object members

theorem exists_textsOf?_iff (items : List Value) :
    (∃ texts, textsOf? items = some texts) ↔ ∀ item ∈ items, ∃ text, item = .text text := by
  induction items with
  | nil => simp [textsOf?]
  | cons item rest inductionHypothesis =>
      cases item with
      | text value =>
          rw [textsOf?, List.forall_mem_cons, ← inductionHypothesis]
          cases textsOf? rest <;> simp
      | null | flag | integer | float | array | object => simp [textsOf?]

theorem exists_termValues?_iff (given : Value) :
    (∃ values, termValues? given = some values) ↔ IsTerm given := by
  cases given <;> simp [termValues?, IsTerm, exists_textsOf?_iff]

theorem exists_readTerms_iff (members : List (String × Value)) :
    (∃ terms, readTerms members = .ok terms) ↔ ∀ term ∈ members, IsTerm term.2 := by
  induction members with
  | nil => simp [readTerms]
  | cons term rest inductionHypothesis =>
      obtain ⟨name, given⟩ := term
      rw [List.forall_mem_cons, ← inductionHypothesis, ← exists_termValues?_iff, readTerms]
      cases termValues? given with
      | none => simp
      | some values => simp [exists_map_eq_ok_iff]

theorem exists_readMetadata_iff (given : Value) :
    (∃ terms, readMetadata given = .ok terms) ↔ IsMetadata given := by
  cases given <;> simp [readMetadata, IsMetadata, exists_readTerms_iff]

theorem exists_readFeatures_iff (given : Value) :
    (∃ shows, readFeatures given = .ok shows) ↔ ∃ members, given = .object members := by
  cases given <;> simp [readFeatures]

/-- The members of a source are those it has; the items of an array are its lines. -/
theorem lookup_sourceMembers {source : Value} {members : List (String × Value)}
    (found : sourceMembers source = .ok members) {name : String} (other : name ≠ "lines") :
    members.lookup name = member? source name := by
  cases source with
  | array items =>
      cases found
      have differs : (name == "lines") = false := by simpa using other
      rw [List.lookup_cons, differs]
      rfl
  | object given =>
      cases found
      rfl
  | null | flag | integer | float | text => cases found

theorem sourceLines_eq_ok_iff (members : List (String × Value)) (entries : List Value) :
    sourceLines members = .ok entries ↔
      members.lookup "lines" = some (.array entries) ∨
        members.lookup "lines" = none ∧ entries = [] := by
  unfold sourceLines memberOr
  cases members.lookup "lines" with
  | none => simp [eq_comm]
  | some given => cases given <;> simp

/-- The entries of a source are found exactly where it gives them. -/
theorem exists_sourceLines_iff (source : Value) (entries : List Value) :
    (∃ members, sourceMembers source = .ok members ∧ sourceLines members = .ok entries) ↔
      GivesEntries source entries := by
  simp only [sourceLines_eq_ok_iff]
  constructor
  · rintro ⟨members, found, lines⟩
    cases source with
    | array items =>
        cases found
        have same : items = entries := by simpa [List.lookup_cons] using lines
        exact same ▸ .items items
    | object given =>
        cases found
        rcases lines with lines | ⟨absent, rfl⟩
        · exact .member lines
        · exact .none absent
    | null | flag | integer | float | text => cases found
  · intro gives
    cases gives with
    | items => exact ⟨_, rfl, .inl rfl⟩
    | member lines => exact ⟨_, rfl, .inl lines⟩
    | none absent => exact ⟨_, rfl, .inr ⟨absent, rfl⟩⟩

theorem unlocated_eq_ok_iff {Result : Type} (outcome : Except ParsingCause Result)
    (result : Result) : unlocated outcome = .ok result ↔ outcome = .ok result := by
  cases outcome <;> simp [unlocated]

/-- A document is read from a value exactly when the value describes one. -/
theorem exists_ofValue_iff (source : Value) :
    (∃ document, ofValue source = .ok document) ↔ IsDocument source := by
  have parts : (∃ document, ofValue source = .ok document) ↔
      ∃ members, sourceMembers source = .ok members ∧
        ∃ entries, sourceLines members = .ok entries ∧
          (∃ lines, readLines 0 entries = .ok lines) ∧
          (∃ terms, readMetadata (memberOr members "metadata" (.object [])) = .ok terms) ∧
          ∃ shows, readFeatures (memberOr members "features" (.object [])) = .ok shows := by
    simp only [ofValue, exists_bind_eq_ok_iff, unlocated_eq_ok_iff, pure, Except.pure,
      Except.ok.injEq, exists_eq', and_true, exists_and_right]
  have metadata (members : List (String × Value)) :=
    memberOr_iff IsMetadata (.object []) (List.forall_mem_nil _) members "metadata"
  have features (members : List (String × Value)) :=
    memberOr_iff (fun given => ∃ members, given = .object members) (.object []) ⟨[], rfl⟩ members
      "features"
  rw [parts]
  simp only [exists_readLines_iff, exists_readMetadata_iff, exists_readFeatures_iff, metadata,
    features]
  constructor
  · rintro ⟨members, found, entries, lines, acceptable, isMetadata, isFeatures⟩
    constructor
    · exact ⟨entries, (exists_sourceLines_iff source entries).mp ⟨members, found, lines⟩,
        acceptable⟩
    · rwa [lookup_sourceMembers found (by decide)] at isMetadata
    · rwa [lookup_sourceMembers found (by decide)] at isFeatures
  · rintro ⟨⟨entries, gives, acceptable⟩, isMetadata, isFeatures⟩
    obtain ⟨members, found, lines⟩ := (exists_sourceLines_iff source entries).mpr gives
    refine ⟨members, found, entries, lines, acceptable, ?_, ?_⟩
    · rwa [lookup_sourceMembers found (by decide)]
    · rwa [lookup_sourceMembers found (by decide)]

theorem unlocated_ne_located {Result : Type} (outcome : Except ParsingCause Result)
    (cause : ParsingCause) (index : Nat) : unlocated outcome ≠ .error ⟨cause, some index⟩ := by
  cases outcome <;> simp [unlocated]

theorem unlocated_ok_bind {First Result : Type} (first : First)
    (next : First → Except ParsingError Result) : (unlocated (.ok first) >>= next) = next first :=
  rfl

/-- Once the entries are found, nothing but the lines can be blamed by a number. -/
theorem ofValue_of_entries {source : Value} {members : List (String × Value)}
    {entries : List Value} (found : sourceMembers source = .ok members)
    (given : sourceLines members = .ok entries) :
    ofValue source = readLines 0 entries >>= fun lines => unlocated do
      let metadata ← readMetadata (memberOr members "metadata" (.object []))
      let showsMetadata ← readFeatures (memberOr members "features" (.object []))
      return ⟨lines, metadata, showsMetadata⟩ := by
  simp only [ofValue, found, given, unlocated_ok_bind]
  cases readMetadata (memberOr members "metadata" (.object [])) with
  | error cause => rfl
  | ok terms =>
      cases readFeatures (memberOr members "features" (.object [])) with
      | error cause => rfl
      | ok shows => rfl

/-- Where a line is blamed, some entry describes none, and it is the first of these. -/
theorem exists_blamed_iff (source : Value) (index : Nat) :
    (∃ cause, ofValue source = .error ⟨cause, some index⟩) ↔
      ∃ entries, GivesEntries source entries ∧ IsLeast (faultyEntries entries) index := by
  constructor
  · rintro ⟨cause, blamed⟩
    cases found : sourceMembers source with
    | error other =>
        rw [ofValue, found] at blamed
        cases blamed
    | ok members =>
        cases given : sourceLines members with
        | error other =>
            simp only [ofValue, found, given, unlocated_ok_bind] at blamed
            cases blamed
        | ok entries =>
            rw [ofValue_of_entries found given] at blamed
            refine ⟨entries, (exists_sourceLines_iff source entries).mp ⟨members, found, given⟩, ?_⟩
            rcases entries_cases entries with acceptable | ⟨first, least⟩
            · obtain ⟨lines, read⟩ := (exists_readLines_iff entries).mpr acceptable
              rw [read] at blamed
              exact absurd blamed (unlocated_ne_located _ cause index)
            · obtain ⟨reason, read⟩ := readLines_of_isLeast least
              rw [read] at blamed
              cases blamed
              exact least
  · rintro ⟨entries, gives, least⟩
    obtain ⟨members, found, given⟩ := (exists_sourceLines_iff source entries).mpr gives
    obtain ⟨cause, read⟩ := readLines_of_isLeast least
    refine ⟨cause, ?_⟩
    rw [ofValue_of_entries found given, read]
    rfl

/-- Reading accepts exactly the values that describe documents and refuses the others.
A line is blamed by its number exactly when some entry describes none and it is the first
of these, in words that begin with the number. -/
theorem ofValue_accepts (source : Value) :
    ((∃ document, ofValue source = .ok document) ↔ IsDocument source) ∧
      ((∃ error, ofValue source = .error error) ↔ ¬ IsDocument source) ∧
      ∀ index, (∃ error wording, ofValue source = .error error ∧ error.line = some index ∧
          error.message = "line " ++ toString index ++ ": " ++ wording) ↔
        ∃ entries, GivesEntries source entries ∧ IsLeast (faultyEntries entries) index := by
  have accepts := exists_ofValue_iff source
  refine ⟨accepts, ?_, ?_⟩
  · rw [← accepts]
    cases ofValue source <;> simp
  · intro index
    rw [← exists_blamed_iff]
    constructor
    · rintro ⟨⟨cause, line⟩, wording, blamed, rfl, -⟩
      exact ⟨cause, blamed⟩
    · rintro ⟨cause, blamed⟩
      exact ⟨⟨cause, some index⟩, cause.message, blamed, rfl, rfl⟩

end Document

end Folio
