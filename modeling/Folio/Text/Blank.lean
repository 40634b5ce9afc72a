import Folio.Text.CharClass

/-!
# Blank characters

Blanks are the characters of the Unicode property `White_Space` together with
the four separators U+001C to U+001F.  They separate the words of a class list
and surround numbers, and a layout slot that holds nothing else may be laid out
anew.
-/

namespace Folio.Text

/-- White space, including the four ASCII information separators. -/
def blank : CharClass :=
  ⟨[(0x09, 0x0D), (0x1C, 0x20), (0x85, 0x85), (0xA0, 0xA0), (0x1680, 0x1680),
    (0x2000, 0x200A), (0x2028, 0x2029), (0x202F, 0x202F), (0x205F, 0x205F),
    (0x3000, 0x3000)]⟩

def isBlank (c : Char) : Bool := blank.contains c

/-- Whether a text holds no character but blanks; the empty text qualifies. -/
def isBlankText (s : String) : Bool := s.toList.all isBlank

def trim (s : List Char) : List Char :=
  ((s.dropWhile isBlank).reverse.dropWhile isBlank).reverse

/-- Put a finished word in front of the words that follow it; an empty one is
no word. -/
def keepWord (word : List Char) (following : List (List Char)) : List (List Char) :=
  if word.isEmpty then following else word :: following

/-- One character in front of a text whose first, possibly unfinished, word and
remaining words are known. -/
def extendWords (c : Char) : List Char × List (List Char) → List Char × List (List Char)
  | (word, following) =>
      if isBlank c then ([], keepWord word following) else (c :: word, following)

/-- The maximal runs of characters that are not blank, in order. -/
def words (s : String) : List String :=
  let (word, following) := s.toList.foldr extendWords ([], [])
  (keepWord word following).map String.ofList

theorem isAscending_blank : CharClass.isAscending blank.ranges = true := by decide

theorem size_blank : blank.size = 29 := by decide

/-- The characters that Lean's own class of white space holds are blank. -/
theorem isBlank_of_isWhitespace {c : Char} (whitespace : c.isWhitespace = true) :
    isBlank c = true := by
  simp only [Char.isWhitespace, Bool.or_eq_true, decide_eq_true_eq] at whitespace
  rcases whitespace with ((rfl | rfl) | rfl) | rfl <;> decide

end Folio.Text
