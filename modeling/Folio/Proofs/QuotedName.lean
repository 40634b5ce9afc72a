import Folio.Service.Endpoint

/-!
# Names that are sent in quotes

The header of a download is a kind with parameters, and the value of a parameter may be
a text in quotes, in which a backslash takes away the meaning of what follows it.  A
name in ASCII is put between quotes as it is.  Whoever reads the header has the name
again exactly when it holds no quote, no backslash and no line break; with a quote in
it, a name may end early and bring parameters of its own.
-/

namespace Folio.Service

/-- A header: its kind, and its parameters with their values, in order. -/
structure Header where
  kind : List Char
  parameters : List (List Char × List Char)
  deriving DecidableEq, Repr

/-- The characters of words that need no quotes. -/
def isTokenChar (c : Char) : Bool :=
  c.isAlphanum ||
    ['!', '#', '$', '%', '&', '\x27', '*', '+', '-', '.', '^', '_', '\x60', '|', '~'].contains c

def isLineBreak (c : Char) : Bool := c = '\n' || c = '\r'

namespace Header

mutual
/-- Read behind the kind or behind a parameter that is complete. -/
def readParameters : List Char → Option (List (List Char × List Char))
  | [] => some []
  | c :: rest => if c = ';' then readName [] rest else none
termination_by structural text => text

/-- Read on in the name of a parameter.  Blanks may stand in front of it. -/
def readName (name : List Char) : List Char → Option (List (List Char × List Char))
  | [] => none
  | c :: rest =>
      if isTokenChar c then readName (name ++ [c]) rest
      else if name.isEmpty then if c = ' ' then readName [] rest else none
      else if c = '=' then readValue name rest
      else none
termination_by structural text => text

/-- Read the value of a parameter. -/
def readValue (name : List Char) : List Char → Option (List (List Char × List Char))
  | [] => none
  | c :: rest =>
      if c = '"' then readQuoted name [] rest
      else if isTokenChar c then readToken name [c] rest
      else none
termination_by structural text => text

/-- Read on in a value without quotes. -/
def readToken (name value : List Char) : List Char → Option (List (List Char × List Char))
  | [] => some [(name, value)]
  | c :: rest =>
      if isTokenChar c then readToken name (value ++ [c]) rest
      else if c = ';' then (readName [] rest).map ((name, value) :: ·)
      else none
termination_by structural text => text

/-- Read on in a value in quotes.  A backslash stands for the character behind it, and
no line may end inside. -/
def readQuoted (name value : List Char) : List Char → Option (List (List Char × List Char))
  | [] => none
  | c :: rest =>
      if c = '"' then (readParameters rest).map ((name, value) :: ·)
      else if c = '\\' then readEscaped name value rest
      else if isLineBreak c then none
      else readQuoted name (value ++ [c]) rest
termination_by structural text => text

/-- Read the character behind a backslash, and on. -/
def readEscaped (name value : List Char) : List Char → Option (List (List Char × List Char))
  | [] => none
  | c :: rest => if isLineBreak c then none else readQuoted name (value ++ [c]) rest
termination_by structural text => text
end

/-- Read a header as a whole. -/
def read (text : List Char) : Option Header :=
  (readParameters (text.dropWhile isTokenChar)).map fun parameters =>
    ⟨text.takeWhile isTokenChar, parameters⟩

end Header

open Header

variable {name value text rest : List Char}

/-! ### Values in quotes -/

/-- The characters that mean themselves inside quotes. -/
def isPlain (c : Char) : Bool := c ≠ '"' && c ≠ '\\' && !isLineBreak c

theorem all_isPlain_iff (text : List Char) :
    text.all isPlain = true ↔ '"' ∉ text ∧ '\\' ∉ text ∧ '\n' ∉ text ∧ '\r' ∉ text := by
  induction text with
  | nil => simp
  | cons c rest inductionHypothesis =>
      rw [List.all_cons, Bool.and_eq_true, inductionHypothesis]
      simp only [isPlain, isLineBreak, List.mem_cons, not_or, Bool.and_eq_true,
        decide_eq_true_eq, Bool.not_eq_true', Bool.or_eq_false_iff, decide_eq_false_iff_not]
      grind

/-- What is read inside quotes is shorter than what it is read from, since at least the
closing quote is no part of it. -/
theorem length_of_readQuoted {first whole : List Char} {others : List (List Char × List Char)}
    (text : List Char) (value : List Char) :
    (readQuoted name value text = some ((first, whole) :: others) →
        whole.length < value.length + text.length) ∧
      (readEscaped name value text = some ((first, whole) :: others) →
        whole.length < value.length + text.length) := by
  induction text generalizing value with
  | nil => exact ⟨by rintro ⟨⟩, by rintro ⟨⟩⟩
  | cons c rest inductionHypothesis =>
      have grown := inductionHypothesis (value ++ [c])
      simp only [List.length_append, List.length_singleton] at grown
      constructor
      · intro read
        rw [readQuoted] at read
        split at read
        · obtain ⟨behind, -, same⟩ := Option.map_eq_some_iff.mp read
          cases same
          simp
        · split at read
          · have shorter := (inductionHypothesis value).2 read
            rw [List.length_cons]
            omega
          · split at read
            · cases read
            · have shorter := grown.1 read
              rw [List.length_cons]
              omega
      · intro read
        rw [readEscaped] at read
        split at read
        · cases read
        · have shorter := grown.1 read
          rw [List.length_cons]
          omega

/-- A text between quotes is read as it stands exactly when all its characters mean
themselves there. -/
theorem readQuoted_eq_iff (name value text : List Char) :
    readQuoted name value (text ++ ['"']) = some [(name, value ++ text)] ↔
      text.all isPlain = true := by
  induction text generalizing value with
  | nil => simp [readQuoted, readParameters]
  | cons c rest inductionHypothesis =>
      have grown := inductionHypothesis (value ++ [c])
      rw [List.append_assoc, List.singleton_append] at grown
      rw [List.cons_append, readQuoted, List.all_cons]
      by_cases quote : c = '"'
      · -- The value would end here.
        subst quote
        simp [isPlain]
      · by_cases backslash : c = '\\'
        · subst backslash
          refine iff_of_false ?_ (by simp [isPlain])
          intro read
          rw [if_neg quote, if_pos rfl] at read
          have shorter := (length_of_readQuoted _ _).2 read
          simp at shorter
        · by_cases lineBreak : isLineBreak c = true
          · simp [quote, backslash, lineBreak, isPlain]
          · have plain : isPlain c = true := by simp [isPlain, quote, backslash, lineBreak]
            rw [if_neg quote, if_neg backslash, if_neg lineBreak, plain, Bool.true_and]
            exact grown

/-! ### Headers -/

theorem readName_token {token : List Char} (word : token.all isTokenChar = true)
    (read rest : List Char) : readName read (token ++ rest) = readName (read ++ token) rest := by
  induction token generalizing read with
  | nil => simp
  | cons c others inductionHypothesis =>
      obtain ⟨first, following⟩ := Bool.and_eq_true_iff.mp (List.all_cons.symm.trans word)
      rw [List.cons_append, readName, if_pos first, inductionHypothesis following,
        List.append_assoc, List.singleton_append]

/-- A kind and the name of a parameter in front of a quote are read as they stand. -/
theorem read_parameter {kind name : List Char} (kindWord : kind.all isTokenChar = true)
    (nameWord : name.all isTokenChar = true) (named : name.isEmpty = false) (rest : List Char) :
    Header.read (kind ++ "; ".toList ++ name ++ "=\"".toList ++ rest) =
      (readQuoted name [] rest).map (⟨kind, ·⟩) := by
  have divided : isTokenChar ';' = false := by decide
  have parts : kind ++ "; ".toList ++ name ++ "=\"".toList ++ rest =
      kind ++ ';' :: ' ' :: (name ++ '=' :: '"' :: rest) := by simp
  have word : ∀ c ∈ kind, isTokenChar c = true := List.all_eq_true.mp kindWord
  have begins (following : List Char) :
      readParameters (';' :: ' ' :: following) = readName [] following := by
    have blank : isTokenChar ' ' = false := by decide
    simp [readParameters, readName, blank]
  have ends : readName name ('=' :: '"' :: rest) = readQuoted name [] rest := by
    have sign : isTokenChar '=' = false := by decide
    simp [readName, readValue, sign, named]
  rw [parts, Header.read, List.takeWhile_append_of_pos word, List.dropWhile_append_of_pos word,
    List.takeWhile_cons_of_neg (by simp [divided]), List.dropWhile_cons_of_neg (by simp [divided]),
    begins, readName_token nameWord, List.nil_append, ends, List.append_nil]

/-- The header that offers a download under a name in ASCII is read as a single
parameter with that name exactly when the name holds no quote, no backslash and no line
break. -/
theorem read_disposition_iff (filename : String) (ascii : isAsciiText filename = true) :
    Header.read (disposition filename).toList =
        some ⟨"attachment".toList, [("filename".toList, filename.toList)]⟩ ↔
      '"' ∉ filename.toList ∧ '\\' ∉ filename.toList ∧
        '\n' ∉ filename.toList ∧ '\r' ∉ filename.toList := by
  have quoted : (disposition filename).toList =
      "attachment".toList ++ "; ".toList ++ "filename".toList ++ "=\"".toList ++
        (filename.toList ++ ['"']) := by
    simp [disposition, ascii]
  have read := readQuoted_eq_iff "filename".toList [] filename.toList
  rw [List.nil_append] at read
  rw [quoted, read_parameter (by decide) (by decide) (by decide)]
  calc (readQuoted "filename".toList [] (filename.toList ++ ['"'])).map
          (⟨"attachment".toList, ·⟩) =
        some (⟨"attachment".toList, [("filename".toList, filename.toList)]⟩ : Header)
      ↔ readQuoted "filename".toList [] (filename.toList ++ ['"']) =
          some [("filename".toList, filename.toList)] := by simp [Option.map_eq_some_iff]
    _ ↔ filename.toList.all isPlain = true := read
    _ ↔ _ := all_isPlain_iff filename.toList

/-- Blanks, semicolons and what looks like an escape of another kind do no harm. -/
theorem read_disposition_iff_semicolon :
    isAsciiText "a; filename=%22.html" = true ∧
      Header.read (disposition "a; filename=%22.html").toList =
        some ⟨"attachment".toList, [("filename".toList, "a; filename=%22.html".toList)]⟩ :=
  have ascii : isAsciiText "a; filename=%22.html" = true := by decide
  ⟨ascii, (read_disposition_iff _ ascii).mpr (by decide)⟩

/-- The name of an upload that holds quotes ends at the first of them, and brings a
parameter of its own; with a single quote in it, the header cannot be read at all. -/
theorem read_disposition_quotes :
    isAsciiText (downloadName (some "a\"; filename=\"b.json")) = true ∧
      Header.read (disposition (downloadName (some "a\"; filename=\"b.json"))).toList =
        some ⟨"attachment".toList,
          [("filename".toList, "a".toList), ("filename".toList, "b.html".toList)]⟩ ∧
      isAsciiText "a\"b" = true ∧ Header.read (disposition "a\"b").toList = none := by
  decide +kernel

end Folio.Service
