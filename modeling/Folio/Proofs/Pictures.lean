import Folio.Proofs.Newlines
import Folio.Publish

/-!
# Pages by way of two pictures

Writing every line end of a text as a line feed does not matter to its pictures, nor to the
page that is published from them.  A text with two pictures that are the same holds no half
of a surrogate pair, and publishing it is converting it.
-/

namespace Folio

/-! ### Line ends in a picture -/

namespace Text

theorem unifyNewlines_return_feed (rest : List Char) :
    unifyNewlines ('\r' :: '\n' :: rest) = '\n' :: unifyNewlines rest := by
  rw [unifyNewlines]

theorem unifyNewlines_return_other {rest : List Char} (other : rest.head? ≠ some '\n') :
    unifyNewlines ('\r' :: rest) = '\n' :: unifyNewlines rest := by
  rw [unifyNewlines]
  rintro behind rfl
  exact other rfl

theorem Picture.le_toNat_standIn (picture : Picture) (index : Fin 0x800) :
    0xE000 ≤ (picture.standIn index).toNat := by
  have small := index.isLt
  have base : 0xE000 ≤ picture.base ∧ picture.base ≤ 0xE800 := by cases picture <;> decide
  have valid : (picture.base + index.val).isValidChar := .inr ⟨by omega, by omega⟩
  rw [standIn, Char.ofNat, dif_pos valid]
  change 0xE000 ≤ picture.base + index.val
  omega

/-- A character that stands for a half is no line end. -/
theorem Picture.standIn_ne (picture : Picture) (index : Fin 0x800) {c : Char}
    (low : c.toNat < 0xE000) : picture.standIn index ≠ c := by
  rintro rfl
  exact absurd (picture.le_toNat_standIn index) (by omega)

namespace Symbol

variable (picture : Picture)

theorem depict_eq_iff {c : Char} (low : c.toNat < 0xE000) (symbol : Symbol) :
    symbol.depict picture = c ↔ symbol = .char c := by
  cases symbol with
  | char other => simp [depict]
  | half index => simp [depict, picture.standIn_ne index low]

theorem map_depict_unifyNewlines (source : List Symbol) :
    (unifyNewlines source).map (·.depict picture) =
      Text.unifyNewlines (source.map (·.depict picture)) := by
  fun_induction unifyNewlines source with
  | case1 => rfl
  | case2 rest inductionHypothesis =>
      simp only [List.map_cons, depict_char, unifyNewlines_return_feed, inductionHypothesis]
  | case3 rest single inductionHypothesis =>
      have other : (rest.map (·.depict picture)).head? ≠ some '\n' := by
        cases rest with
        | nil => simp
        | cons symbol behind =>
            have differs : symbol ≠ .char '\n' := fun feed => single behind (by rw [feed])
            simpa [depict_eq_iff picture (c := '\n') (by decide)] using differs
      simp only [List.map_cons, depict_char, unifyNewlines_return_other other, inductionHypothesis]
  | case4 symbol rest _ notReturn inductionHypothesis =>
      have differs : symbol.depict picture ≠ '\r' := by
        rw [ne_eq, depict_eq_iff picture (by decide)]
        exact notReturn
      simp only [List.map_cons, unifyNewlines_cons differs, inductionHypothesis]

end Symbol

end Text

/-! ### Line ends around escapes -/

namespace Json

open Text

theorem leadingCode?_eq_some_iff {s : List Char} {code : Nat} :
    leadingCode? s = some code ↔
      ∃ a b c d rest, s = [a, b, c, d] ++ rest ∧ hexQuad? a b c d = some code := by
  unfold leadingCode?
  split
  · rename_i a b c d rest
    constructor
    · exact fun quad => ⟨a, b, c, d, rest, rfl, quad⟩
    · rintro ⟨_, _, _, _, _, same, quad⟩
      cases same
      exact quad
  · rename_i short
    simp only [reduceCtorEq, false_iff]
    rintro ⟨a, b, c, d, rest, rfl, -⟩
    exact short a b c d rest rfl

theorem leadingCode?_unifyNewlines (s : List Char) :
    leadingCode? (unifyNewlines s) = leadingCode? s := by
  ext code
  simp only [leadingCode?_eq_some_iff]
  constructor
  · rintro ⟨a, b, c, d, unified, begins, quad⟩
    have noFeed := not_mem_of_hexQuad? quad '\n' (by decide)
    obtain ⟨rest, rfl, -⟩ := append_of_unifyNewlines noFeed begins
    exact ⟨a, b, c, d, rest, rfl, quad⟩
  · rintro ⟨a, b, c, d, rest, rfl, quad⟩
    have noReturn := not_mem_of_hexQuad? quad '\r' (by decide)
    exact ⟨a, b, c, d, unifyNewlines rest, unifyNewlines_append noReturn rest, quad⟩

theorem beginsWithLow_iff {s : List Char} :
    beginsWithLow s = true ↔
      ∃ rest code, s = ['\\', 'u'] ++ rest ∧ leadingCode? rest = some code ∧
        isLowSurrogate code = true := by
  unfold beginsWithLow
  split
  · simp [Option.any_eq_true]
  · rename_i other
    simp only [Bool.false_eq_true, false_iff]
    rintro ⟨rest, -, rfl, -⟩
    exact other rest rfl

theorem beginsWithLow_unifyNewlines (s : List Char) :
    beginsWithLow (unifyNewlines s) = beginsWithLow s := by
  rw [Bool.eq_iff_iff, beginsWithLow_iff, beginsWithLow_iff]
  constructor
  · rintro ⟨unified, code, begins, found, low⟩
    obtain ⟨rest, rfl, rfl⟩ := append_of_unifyNewlines (by decide) begins
    rw [leadingCode?_unifyNewlines] at found
    exact ⟨rest, code, rfl, found, low⟩
  · rintro ⟨rest, code, rfl, found, low⟩
    refine ⟨unifyNewlines rest, code, unifyNewlines_append (by decide) rest, ?_, low⟩
    rw [leadingCode?_unifyNewlines, found]

theorem depictEscapes_badEscape {s : List Char} (bad : leadingCode? s = none) (isPaired : Bool) :
    depictEscapes isPaired ('\\' :: 'u' :: s) = '\\' :: 'u' :: depictEscapes false s := by
  match s with
  | [] | [_] | [_, _] | [_, _, _] =>
      rw [depictEscapes]
      simp
  | a :: b :: c :: d :: rest =>
      have quad : hexQuad? a b c d = none := bad
      rw [depictEscapes, quad]

theorem depictEscapes_shortEscape {letter : Char} (notHex : letter ≠ 'u') (isPaired : Bool)
    (rest : List Char) :
    depictEscapes isPaired ('\\' :: letter :: rest) =
      '\\' :: letter :: depictEscapes false rest := by
  rw [depictEscapes]
  rintro _ _ _ _ _ rfl
  contradiction

theorem depictEscapes_plain {c : Char} (notBackslash : c ≠ '\\') (isPaired : Bool)
    (rest : List Char) :
    depictEscapes isPaired (c :: rest) = c :: depictEscapes false rest := by
  rw [depictEscapes]
  · rintro _ _ _ _ _ rfl
    contradiction
  · rintro _ _ rfl
    contradiction

theorem head?_depictEscapes (isPaired : Bool) (s : List Char) :
    (depictEscapes isPaired s).head? = s.head? := by
  fun_cases depictEscapes isPaired s <;> rfl

/-- If line ends behind a return do not matter, neither does the return. -/
theorem depictEscapes_return {rest : List Char}
    (behind : depictEscapes false (unifyNewlines rest) =
      unifyNewlines (depictEscapes false rest)) (isPaired : Bool) :
    depictEscapes isPaired (unifyNewlines ('\r' :: rest)) =
      unifyNewlines ('\r' :: depictEscapes false rest) := by
  by_cases feeds : rest.head? = some '\n'
  · obtain ⟨others, rfl⟩ := List.head?_eq_some_iff.mp feeds
    rw [unifyNewlines_cons (by decide), depictEscapes_plain (by decide),
      depictEscapes_plain (by decide), unifyNewlines_cons (by decide)] at behind
    rw [unifyNewlines_return_feed, depictEscapes_plain (by decide),
      depictEscapes_plain (by decide), unifyNewlines_return_feed]
    exact behind
  · have stays : (depictEscapes false rest).head? ≠ some '\n' := by
      rwa [head?_depictEscapes]
    rw [unifyNewlines_return_other feeds, unifyNewlines_return_other stays,
      depictEscapes_plain (by decide), behind]

/-- The digit that is put into an escape for a half is no return. -/
theorem digitChar_ne_return {code : Nat} (half : isSurrogate code = true) :
    Nat.digitChar ((code - 0xD800) / 0x100) ≠ '\r' := by
  have bound : code ≤ 0xDFFF := by
    simp only [isSurrogate, isHighSurrogate, isLowSurrogate, Bool.or_eq_true, Bool.and_eq_true,
      decide_eq_true_eq] at half
    omega
  have digits : ∀ value < 8, Nat.digitChar value ≠ '\r' := by decide
  exact digits _ (by omega)

/-- Replacing escapes and unifying line ends do not get in the way of each other. -/
theorem depictEscapes_unifyNewlines (isPaired : Bool) (s : List Char) :
    depictEscapes isPaired (unifyNewlines s) = unifyNewlines (depictEscapes isPaired s) := by
  fun_induction depictEscapes isPaired s with
  | case1 isPaired a b c d rest bad inductionHypothesis =>
      have noCode : leadingCode? (unifyNewlines (a :: b :: c :: d :: rest)) = none := by
        rw [leadingCode?_unifyNewlines]
        exact bad
      rw [unifyNewlines_cons (by decide), unifyNewlines_cons (by decide),
        depictEscapes_badEscape noCode, inductionHypothesis, unifyNewlines_cons (by decide),
        unifyNewlines_cons (by decide)]
  | case2 isPaired a b c d rest code quad pairs stays inductionHypothesis =>
      have noReturn : '\r' ∉ ['\\', 'u', a, b, c, d] := by
        simpa using not_mem_of_hexQuad? quad '\r' (by decide)
      have split := unifyNewlines_append noReturn
      simp only [List.cons_append, List.nil_append] at split
      rw [split, split, depictEscapes, quad]
      simp only [beginsWithLow_unifyNewlines]
      rw [if_pos stays, inductionHypothesis]
  | case3 isPaired a b c d rest code quad pairs changes inductionHypothesis =>
      have half : isSurrogate code = true := by
        simp only [Bool.or_eq_true, not_or] at changes
        simpa using changes.2
      have digits := not_mem_of_hexQuad? quad '\r' (by decide)
      have noReturn : '\r' ∉ ['\\', 'u', a, b, c, d] := by simpa using digits
      have noReturnIn :
          '\r' ∉ ['\\', 'u', 'e', Nat.digitChar ((code - 0xD800) / 0x100), c, d] := by
        simp only [List.mem_cons, not_or, List.not_mem_nil, not_false_iff, and_true] at digits ⊢
        exact ⟨by decide, by decide, by decide, (digitChar_ne_return half).symm, digits.2.2.1,
          digits.2.2.2⟩
      have split := unifyNewlines_append noReturn
      have splitIn := unifyNewlines_append noReturnIn
      simp only [List.cons_append, List.nil_append] at split splitIn
      rw [split, splitIn, depictEscapes, quad]
      simp only [beginsWithLow_unifyNewlines]
      rw [if_neg changes, inductionHypothesis]
  | case4 isPaired letter rest noDigits inductionHypothesis =>
      rw [unifyNewlines_cons (c := '\\') (by decide), unifyNewlines_cons (c := '\\') (by decide)]
      by_cases isReturn : letter = '\r'
      · subst isReturn
        obtain ⟨behind, fed⟩ := unifyNewlines_return rest
        rw [← depictEscapes_return inductionHypothesis false, fed,
          depictEscapes_shortEscape (by decide), depictEscapes_plain (by decide)]
      · rw [unifyNewlines_cons isReturn, unifyNewlines_cons isReturn, ← inductionHypothesis]
        by_cases isHex : letter = 'u'
        · subst isHex
          refine depictEscapes_badEscape ?_ isPaired
          rw [leadingCode?_unifyNewlines]
          unfold leadingCode?
          split
          · rename_i a b c d behind
            exact (noDigits a b c d behind rfl rfl).elim
          · rfl
        · exact depictEscapes_shortEscape isHex isPaired _
  | case5 isPaired c rest noEscape noLetter inductionHypothesis =>
      by_cases isReturn : c = '\r'
      · subst isReturn
        exact depictEscapes_return inductionHypothesis isPaired
      · rw [unifyNewlines_cons isReturn, unifyNewlines_cons isReturn, ← inductionHypothesis]
        cases rest with
        | nil =>
            rw [depictEscapes]
            · rintro _ _ _ _ _ _ ⟨⟩
            · rintro _ _ _ ⟨⟩
        | cons letter behind =>
            have notBackslash : c ≠ '\\' := fun backslash => noLetter letter behind backslash rfl
            exact depictEscapes_plain notBackslash isPaired _
  | case6 => rfl

theorem firstPicture_unifyNewlines (source : List Symbol) :
    firstPicture (Symbol.unifyNewlines source) =
      String.ofList (unifyNewlines (firstPicture source).toList) := by
  simp only [firstPicture, String.toList_ofList, Symbol.map_depict_unifyNewlines]

theorem secondPicture_unifyNewlines (source : List Symbol) :
    secondPicture (Symbol.unifyNewlines source) =
      String.ofList (unifyNewlines (secondPicture source).toList) := by
  simp only [secondPicture, String.toList_ofList, Symbol.map_depict_unifyNewlines,
    depictEscapes_unifyNewlines]

theorem firstPicture_ofText (text : String) : firstPicture (Symbol.ofText text) = text := by
  simp [firstPicture, Symbol.ofText, Function.comp_def]

theorem depictEscapes_eq_self {s : List Char} (noEscape : '\\' ∉ s) (isPaired : Bool) :
    depictEscapes isPaired s = s := by
  induction s generalizing isPaired with
  | nil => rw [depictEscapes]
  | cons c rest inductionHypothesis =>
      obtain ⟨other, below⟩ := not_or.mp (mt List.mem_cons.mpr noEscape)
      rw [depictEscapes_plain (Ne.symm other), inductionHypothesis below]

theorem secondPicture_ofText {text : String} (noEscape : '\\' ∉ text.toList) :
    secondPicture (Symbol.ofText text) = text := by
  simp [secondPicture, Symbol.ofText, Function.comp_def, depictEscapes_eq_self noEscape]

end Json

/-! ### Published texts -/

open Text

theorem toOption_convert_unifyNewlines (options : Options) (text : String) :
    (convert options (String.ofList (unifyNewlines text.toList))).toOption =
      (convert options text).toOption := by
  ext html
  simp only [toOption_eq_some_iff, convert_unifyNewlines_eq_ok_iff]

theorem reveal_unifyNewlines (options : Options) (source : List Symbol) (page : String) :
    reveal options (Symbol.unifyNewlines source) page = reveal options source page := by
  simp only [reveal, Json.secondPicture_unifyNewlines, toOption_convert_unifyNewlines]

theorem publish_eq_ok_iff {options : Options} {source : List Symbol}
    {page : Except Encoding.EncodeFault String} :
    publish options source = .ok page ↔
      ∃ html, convert options (Json.firstPicture source) = .ok html ∧
        reveal options source html = page := by
  rw [publish]
  cases convert options (Json.firstPicture source) <;> simp [Except.map]

/-- The line ends of a text have no say in its page, nor in whether it can be encoded. -/
theorem publish_unifyNewlines_eq_ok_iff (options : Options) (source : List Symbol)
    (page : Except Encoding.EncodeFault String) :
    publish options (Symbol.unifyNewlines source) = .ok page ↔
      publish options source = .ok page := by
  simp only [publish_eq_ok_iff, Json.firstPicture_unifyNewlines,
    convert_unifyNewlines_eq_ok_iff, reveal_unifyNewlines]

/-! ### Texts without halves -/

/-- A text can be encoded exactly when no half is among its symbols. -/
theorem Encoding.encodable_eq_ok_iff {symbols : List Symbol} {text : String} :
    encodable symbols = .ok text ↔ symbols = Symbol.ofText text := by
  constructor
  · intro made
    unfold encodable at made
    split at made
    · rename_i noHalf
      have chars : ∀ symbol ∈ symbols, .char (symbol.depict .first) = symbol := by
        intro symbol member
        have isChar := List.dropWhile_eq_nil_iff.mp noHalf symbol member
        cases symbol with
        | char c => rfl
        | half index => cases isChar
      cases made
      simp only [Symbol.ofText, String.toList_ofList, List.map_map, Function.comp_def]
      exact ((List.map_congr_left chars).trans (List.map_id _)).symm
    · cases made
  · rintro rfl
    have noHalf : (Symbol.ofText text).dropWhile (!·.isHalf) = [] := by
      simp [Symbol.ofText, List.dropWhile_eq_nil_iff, Symbol.isHalf]
    rw [encodable, noHalf]
    simp [Symbol.ofText, Function.comp_def]

theorem publish_of_alike (options : Options) {source : List Symbol}
    (alike : Json.secondPicture source = Json.firstPicture source) :
    publish options source = (convert options (Json.firstPicture source)).map .ok := by
  rw [publish]
  cases converted : convert options (Json.firstPicture source) with
  | error failure => rfl
  | ok page =>
      have made : reveal options source page = .ok page := by
        simp only [reveal, alike, converted]
        exact if_pos rfl
      exact congrArg Except.ok made

/-- Of a text without escapes the page can be encoded if there is one. -/
theorem publish_ofText (options : Options) {text : String} (noEscape : '\\' ∉ text.toList) :
    publish options (Symbol.ofText text) = (convert options text).map .ok := by
  have alike :
      Json.secondPicture (Symbol.ofText text) = Json.firstPicture (Symbol.ofText text) := by
    rw [Json.secondPicture_ofText noEscape, Json.firstPicture_ofText]
  rw [publish_of_alike options alike, Json.firstPicture_ofText]

end Folio
