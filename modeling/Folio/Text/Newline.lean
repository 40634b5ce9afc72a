/-!
# Line ends

A text is cut at line ends, and a line end is a carriage return with a line
feed after it, a carriage return alone or a line feed alone.  `splitLines` says
what stands between the line ends; `unifyNewlines` writes each of them as one
line feed.
-/

namespace Folio.Text

def extendLine (c : Char) : List (List Char) → List (List Char)
  | [] => [[c]]
  | line :: following => (c :: line) :: following

/-- The pieces between the line ends; a text without any is one piece. -/
def splitLines : List Char → List (List Char)
  | [] => [[]]
  | '\r' :: '\n' :: rest => [] :: splitLines rest
  | '\r' :: rest => [] :: splitLines rest
  | '\n' :: rest => [] :: splitLines rest
  | c :: rest => extendLine c (splitLines rest)

def linesOf (s : String) : List String :=
  (splitLines s.toList).map String.ofList

def unifyNewlines : List Char → List Char
  | [] => []
  | '\r' :: '\n' :: rest => '\n' :: unifyNewlines rest
  | '\r' :: rest => '\n' :: unifyNewlines rest
  | c :: rest => c :: unifyNewlines rest

theorem splitLines_ne_nil (s : List Char) : splitLines s ≠ [] := by
  fun_cases splitLines s <;> simp
  unfold extendLine
  split <;> simp

end Folio.Text
