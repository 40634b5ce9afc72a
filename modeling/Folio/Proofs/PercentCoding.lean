import Folio.Proofs.Writer
import Folio.Service.Disposition

/-!
# Names that are sent as escaped bytes

A text is encoded in UTF-8 and decoded again without loss: the first byte of a
character says in which range the next one must lie, and the bytes of a character
keep to that range.  A name beyond ASCII is sent as such bytes, with most of them
escaped, and whoever undoes the escapes and decodes the bytes has the name again.
-/

namespace Folio.Encoding.Utf8

/-! ### Decoding what was encoded -/

theorem toNat_ofNat_of_lt {value : Nat} (small : value < 0x100) :
    (UInt8.ofNat value).toNat = value := by
  simp [Nat.mod_eq_of_lt small]

variable {pending : Pending} {digit : Nat}

theorem decodeFrom_last (low : pending.low ≤ digit + 0x80) (high : digit + 0x80 ≤ pending.high)
    (small : digit < 0x40) (owed : pending.owed = 0) (rest : List UInt8) :
    decodeFrom (some pending) (UInt8.ofNat (digit + 0x80) :: rest) =
      (decodeFrom none rest).map (Char.ofNat (pending.bits * 0x40 + digit) :: ·) := by
  have value : (UInt8.ofNat (digit + 0x80)).toNat = digit + 0x80 := toNat_ofNat_of_lt (by omega)
  rw [decodeFrom, value, if_pos ⟨low, high⟩, owed, Nat.add_sub_cancel]

theorem decodeFrom_more {owed : Nat} (low : pending.low ≤ digit + 0x80)
    (high : digit + 0x80 ≤ pending.high) (small : digit < 0x40) (owes : pending.owed = owed + 1)
    (rest : List UInt8) :
    decodeFrom (some pending) (UInt8.ofNat (digit + 0x80) :: rest) =
      decodeFrom (some ⟨pending.start, pending.taken + 1, owed, 0x80, 0xBF,
        pending.bits * 0x40 + digit⟩) rest := by
  have value : (UInt8.ofNat (digit + 0x80)).toNat = digit + 0x80 := toNat_ofNat_of_lt (by omega)
  rw [decodeFrom, value, if_pos ⟨low, high⟩, owes, Nat.add_sub_cancel]

theorem decodeFrom_begin {first : Nat} (small : first < 0x100) (beyond : 0x80 ≤ first)
    {rest : List UInt8} (begins : begin? first (UInt8.ofNat first :: rest) = some pending) :
    decodeFrom none (UInt8.ofNat first :: rest) = decodeFrom (some pending) rest := by
  have value : (UInt8.ofNat first).toNat = first := toNat_ofNat_of_lt small
  rw [decodeFrom, value, if_neg (by omega), begins]

/-- The first of three bytes leaves open two, and the range of the next one shuts out
what fewer bytes can write and the surrogates. -/
theorem begin?_three {value : Nat} (large : 0x800 ≤ value) (small : value < 0x10000)
    (noSurrogate : value < 0xD800 ∨ 0xDFFF < value) (start : List UInt8) :
    ∃ low high, begin? (value / 0x1000 + 0xE0) start =
        some ⟨start, 1, 1, low, high, value / 0x1000⟩ ∧
      low ≤ value / 0x40 % 0x40 + 0x80 ∧ value / 0x40 % 0x40 + 0x80 ≤ high := by
  by_cases least : value / 0x1000 = 0
  · exact ⟨0xA0, 0xBF, by rw [least]; rfl, by omega, by omega⟩
  · by_cases surrogates : value / 0x1000 = 0xD
    · exact ⟨0x80, 0x9F, by rw [surrogates]; rfl, by omega, by omega⟩
    · refine ⟨0x80, 0xBF, ?_, by omega, by omega⟩
      rw [begin?, if_neg (by omega), if_neg (by omega), if_neg (by omega),
        if_pos (by omega), Nat.add_sub_cancel]

/-- The first of four bytes leaves open three, and the range of the next one shuts out
what fewer bytes can write and what is no code point. -/
theorem begin?_four {value : Nat} (large : 0x10000 ≤ value) (small : value < 0x110000)
    (start : List UInt8) :
    ∃ low high, begin? (value / 0x40000 + 0xF0) start =
        some ⟨start, 1, 2, low, high, value / 0x40000⟩ ∧
      low ≤ value / 0x1000 % 0x40 + 0x80 ∧ value / 0x1000 % 0x40 + 0x80 ≤ high := by
  by_cases least : value / 0x40000 = 0
  · exact ⟨0x90, 0xBF, by rw [least]; rfl, by omega, by omega⟩
  · by_cases greatest : value / 0x40000 = 4
    · exact ⟨0x80, 0x8F, by rw [greatest]; rfl, by omega, by omega⟩
    · refine ⟨0x80, 0xBF, ?_, by omega, by omega⟩
      rw [begin?, if_neg (by omega), if_neg (by omega), if_neg (by omega), if_neg (by omega),
        if_neg (by omega), if_pos (by omega), Nat.add_sub_cancel]

theorem decodeFrom_two {value : Nat} (large : 0x80 ≤ value) (small : value < 0x800)
    (rest : List UInt8) :
    decodeFrom none (UInt8.ofNat (value / 0x40 + 0xC0) :: UInt8.ofNat (value % 0x40 + 0x80) ::
        rest) = (decodeFrom none rest).map (Char.ofNat value :: ·) := by
  have begins (start : List UInt8) : begin? (value / 0x40 + 0xC0) start =
      some ⟨start, 1, 0, 0x80, 0xBF, value / 0x40⟩ := by
    rw [begin?, if_pos (by omega), Nat.add_sub_cancel]
  rw [decodeFrom_begin (by omega) (by omega) (begins _),
    decodeFrom_last (by simp) (by simp; omega) (by omega) rfl, Nat.div_add_mod' value 0x40]

theorem decodeFrom_three {value : Nat} (large : 0x800 ≤ value) (small : value < 0x10000)
    (noSurrogate : value < 0xD800 ∨ 0xDFFF < value) (rest : List UInt8) :
    decodeFrom none (UInt8.ofNat (value / 0x1000 + 0xE0) ::
        UInt8.ofNat (value / 0x40 % 0x40 + 0x80) :: UInt8.ofNat (value % 0x40 + 0x80) :: rest) =
      (decodeFrom none rest).map (Char.ofNat value :: ·) := by
  obtain ⟨low, high, begins, above, below⟩ := begin?_three large small noSurrogate
    (UInt8.ofNat (value / 0x1000 + 0xE0) :: UInt8.ofNat (value / 0x40 % 0x40 + 0x80) ::
      UInt8.ofNat (value % 0x40 + 0x80) :: rest)
  have whole : (value / 0x1000 * 0x40 + value / 0x40 % 0x40) * 0x40 + value % 0x40 = value := by
    omega
  rw [decodeFrom_begin (by omega) (by omega) begins, decodeFrom_more above below (by omega) rfl,
    decodeFrom_last (by simp) (by simp; omega) (by omega) rfl, whole]

theorem decodeFrom_four {value : Nat} (large : 0x10000 ≤ value) (small : value < 0x110000)
    (rest : List UInt8) :
    decodeFrom none (UInt8.ofNat (value / 0x40000 + 0xF0) ::
        UInt8.ofNat (value / 0x1000 % 0x40 + 0x80) :: UInt8.ofNat (value / 0x40 % 0x40 + 0x80) ::
        UInt8.ofNat (value % 0x40 + 0x80) :: rest) =
      (decodeFrom none rest).map (Char.ofNat value :: ·) := by
  obtain ⟨low, high, begins, above, below⟩ := begin?_four large small
    (UInt8.ofNat (value / 0x40000 + 0xF0) :: UInt8.ofNat (value / 0x1000 % 0x40 + 0x80) ::
      UInt8.ofNat (value / 0x40 % 0x40 + 0x80) :: UInt8.ofNat (value % 0x40 + 0x80) :: rest)
  have whole : ((value / 0x40000 * 0x40 + value / 0x1000 % 0x40) * 0x40 +
      value / 0x40 % 0x40) * 0x40 + value % 0x40 = value := by omega
  rw [decodeFrom_begin (by omega) (by omega) begins, decodeFrom_more above below (by omega) rfl,
    decodeFrom_more (by simp) (by simp; omega) (by omega) rfl,
    decodeFrom_last (by simp) (by simp; omega) (by omega) rfl, whole]

/-- The bytes of a character are decoded to it, whatever follows. -/
theorem decodeFrom_encodeChar (c : Char) (rest : List UInt8) :
    decodeFrom none (String.utf8EncodeChar c ++ rest) = (decodeFrom none rest).map (c :: ·) := by
  have char : Char.ofNat c.val.toNat = c := Char.ofNat_toNat c
  have valid : c.val.toNat < 0xD800 ∨ 0xDFFF < c.val.toNat ∧ c.val.toNat < 0x110000 := c.valid
  unfold String.utf8EncodeChar
  generalize c.val.toNat = value at char valid
  subst char
  simp only
  -- The leading digit of a code point is written whole, so its remainder changes nothing.
  split
  · have ascii : (UInt8.ofNat value).toNat = value := toNat_ofNat_of_lt (by omega)
    rw [List.singleton_append, decodeFrom, ascii, if_pos (by omega)]
  · split
    · rw [Nat.mod_eq_of_lt (a := value / 64) (by omega)]
      exact decodeFrom_two (by omega) (by omega) rest
    · split
      · rw [Nat.mod_eq_of_lt (a := value / 4096) (by omega)]
        exact decodeFrom_three (by omega) (by omega) (by omega) rest
      · rw [Nat.mod_eq_of_lt (a := value / 262144) (by omega)]
        exact decodeFrom_four (by omega) (by omega) rest

theorem decode_encode (text : List Char) : decode (encode text) = .ok text := by
  rw [decode]
  induction text with
  | nil => rfl
  | cons c rest inductionHypothesis =>
      rw [encode, List.flatMap_cons, decodeFrom_encodeChar, ← encode, inductionHypothesis]
      rfl

end Folio.Encoding.Utf8

namespace Folio.Service

/-! ### Undoing escapes -/

/-- The characters that stand in an escaped text for themselves. -/
def isUnescaped (c : Char) : Bool := c.isAlphanum || ['_', '.', '-', '~', '/'].contains c

def isHexDigit (c : Char) : Bool := (Json.hexValue? c).isSome

/-- Characters that stand for themselves, and percent signs with two hexadecimal digits
each. -/
inductive IsEscaped : List Char → Prop
  | nil : IsEscaped []
  | plain {c : Char} {rest : List Char} (unescaped : isUnescaped c = true)
      (following : IsEscaped rest) : IsEscaped (c :: rest)
  | escape {high low : Char} {rest : List Char} (first : isHexDigit high = true)
      (second : isHexDigit low = true) (following : IsEscaped rest) :
      IsEscaped ('%' :: high :: low :: rest)

/-- The bytes that an escaped text stands for. -/
def percentDecode : List Char → Option (List UInt8)
  | [] => some []
  | '%' :: high :: low :: rest => do
      let value := (← Json.hexValue? high) * 0x10 + (← Json.hexValue? low)
      return UInt8.ofNat value :: (← percentDecode rest)
  | c :: rest =>
      if isUnescaped c then (percentDecode rest).map (UInt8.ofNat c.toNat :: ·) else none

theorem percentDecode_plain {c : Char} (unescaped : isUnescaped c = true) (rest : List Char) :
    percentDecode (c :: rest) = (percentDecode rest).map (UInt8.ofNat c.toNat :: ·) := by
  have other : c ≠ '%' := by
    rintro rfl
    cases unescaped
  rw [percentDecode, if_pos unescaped]
  rintro _ _ _ rfl
  exact absurd rfl other

theorem hexValue?_hexDigit {value : Nat} (small : value < 0x10) :
    Json.hexValue? (hexDigit value) = some value := by
  have all : ∀ value < 0x10, Json.hexValue? (hexDigit value) = some value := by decide
  exact all value small

/-- A safe byte is the code of a character that stands for itself. -/
theorem isUnescaped_of_isSafeByte {byte : UInt8} (safe : isSafeByte byte = true) :
    isUnescaped (Char.ofNat byte.toNat) = true ∧ (Char.ofNat byte.toNat).toNat = byte.toNat := by
  unfold isSafeByte at safe
  obtain ⟨ascii, unescaped⟩ := Bool.and_eq_true_iff.mp safe
  have small : byte.toNat < 0x80 := of_decide_eq_true ascii
  have valid : Nat.isValidChar byte.toNat := .inl (by omega)
  have value : (Char.ofNat byte.toNat).toNat = byte.toNat := by
    rw [Char.ofNat, dif_pos valid]
    rfl
  exact ⟨unescaped, value⟩

theorem percentDecode_percentByte (byte : UInt8) (rest : List Char) :
    percentDecode (percentByte byte ++ rest) = (percentDecode rest).map (byte :: ·) := by
  have bound := byte.toNat_lt
  unfold percentByte
  split
  · rename_i safe
    obtain ⟨unescaped, value⟩ := isUnescaped_of_isSafeByte safe
    rw [List.singleton_append, percentDecode_plain unescaped, value, UInt8.ofNat_toNat]
  · have whole : byte.toNat / 16 * 16 + byte.toNat % 16 = byte.toNat := by omega
    have high : byte.toNat / 16 < 0x10 := by omega
    have low : byte.toNat % 16 < 0x10 := by omega
    simp only [List.cons_append, List.nil_append, percentDecode, hexValue?_hexDigit high,
      hexValue?_hexDigit low, bind, Option.bind, pure, whole, UInt8.ofNat_toNat]
    cases percentDecode rest <;> rfl

theorem isEscaped_percentByte (byte : UInt8) {rest : List Char} (following : IsEscaped rest) :
    IsEscaped (percentByte byte ++ rest) := by
  have bound := byte.toNat_lt
  unfold percentByte
  split
  · rename_i safe
    exact .plain (isUnescaped_of_isSafeByte safe).1 following
  · refine .escape ?_ ?_ following
    · rw [isHexDigit, hexValue?_hexDigit (by omega)]
      rfl
    · rw [isHexDigit, hexValue?_hexDigit (by omega)]
      rfl

theorem percentDecode_flatMap (bytes : List UInt8) :
    percentDecode (bytes.flatMap percentByte) = some bytes := by
  induction bytes with
  | nil => rfl
  | cons byte rest inductionHypothesis =>
      rw [List.flatMap_cons, percentDecode_percentByte, inductionHypothesis]
      rfl

theorem isEscaped_flatMap (bytes : List UInt8) : IsEscaped (bytes.flatMap percentByte) := by
  induction bytes with
  | nil => exact .nil
  | cons byte rest inductionHypothesis =>
      rw [List.flatMap_cons]
      exact isEscaped_percentByte byte inductionHypothesis

/-! ### Names beyond ASCII -/

/-- The name that an escaped text stands for: its escapes are undone, and the bytes are
read as UTF-8. -/
def nameOfEscaped (value : String) : Option String :=
  (percentDecode value.toList).bind fun bytes =>
    match Encoding.Utf8.decode bytes with
    | .ok characters => some (String.ofList characters)
    | .error _ => none

theorem nameOfEscaped_percentEncode (name : String) :
    nameOfEscaped (percentEncode name) = some name := by
  simp [nameOfEscaped, percentEncode, percentDecode_flatMap, Encoding.Utf8.decode_encode]

/-- What stands in front of an escaped name. -/
def escapedStart : String := "attachment; filename*=UTF-8''"

theorem isAsciiText_eq_false {name : String} (beyond : ∃ c ∈ name.toList, 0x80 ≤ c.toNat) :
    isAsciiText name = false := by
  simpa [isAsciiText] using beyond

theorem disposition_of_not_ascii {name : String} (beyond : isAsciiText name = false) :
    disposition name = escapedStart ++ percentEncode name := by
  rw [disposition, beyond]
  rfl

/-- A name in quotes is no escaped name. -/
theorem disposition_ne_escaped {name value : String} (ascii : isAsciiText name = true) :
    disposition name ≠ escapedStart ++ value := by
  intro same
  have letters := congrArg (fun header => header.toList[20]?) same
  simp [disposition, ascii, escapedStart] at letters

/-- A name that is not in ASCII is offered in a form from which it can be read back, and
no other name is offered in that form. -/
theorem disposition_readsBack (name : String) (beyond : ∃ c ∈ name.toList, 0x80 ≤ c.toNat) :
    ∃ value, disposition name = "attachment; filename*=UTF-8''" ++ value ∧
      IsEscaped value.toList ∧ nameOfEscaped value = some name ∧
      ∀ other, disposition other = disposition name → other = name := by
  have offered := disposition_of_not_ascii (isAsciiText_eq_false beyond)
  refine ⟨percentEncode name, offered, ?_, nameOfEscaped_percentEncode name, ?_⟩
  · rw [percentEncode, String.toList_ofList]
    exact isEscaped_flatMap _
  · intro other same
    rw [offered] at same
    cases ascii : isAsciiText other with
    | true => exact absurd same (disposition_ne_escaped ascii)
    | false =>
        rw [disposition_of_not_ascii ascii, String.append_right_inj] at same
        have read := nameOfEscaped_percentEncode other
        rw [same, nameOfEscaped_percentEncode] at read
        exact (Option.some.inj read).symm

/-- A name with characters of one to four bytes, a percent sign and a blank. -/
theorem disposition_readsBack_mixed :
    (∃ c ∈ "50% é/文😀".toList, 0x80 ≤ c.toNat) ∧
      ∃ value, disposition "50% é/文😀" = "attachment; filename*=UTF-8''" ++ value ∧
        IsEscaped value.toList ∧ nameOfEscaped value = some "50% é/文😀" ∧
        ∀ other, disposition other = disposition "50% é/文😀" → other = "50% é/文😀" := by
  have beyond : ∃ c ∈ "50% é/文😀".toList, 0x80 ≤ c.toNat :=
    ⟨'é', by decide, by decide⟩
  exact ⟨beyond, disposition_readsBack _ beyond⟩

end Folio.Service
