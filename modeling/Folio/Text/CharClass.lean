/-!
# Classes of characters

A class of characters is given by closed ranges of code points.  The classes
that matter to documents (blank, decimal digit, printable) are small tables of
such ranges, and membership is a scan of the table.
-/

namespace Folio.Text

/-- A set of characters, as closed ranges of code points in ascending order. -/
structure CharClass where
  ranges : List (Nat × Nat)

namespace CharClass

/-- Whether some range of the class covers the character. -/
def contains (characters : CharClass) (c : Char) : Bool :=
  characters.ranges.any fun range => range.1 ≤ c.toNat && c.toNat ≤ range.2

def size (characters : CharClass) : Nat :=
  characters.ranges.foldr (fun range total => range.2 + 1 - range.1 + total) 0

/-- Ranges in ascending order that do not touch each other. -/
def isAscending : List (Nat × Nat) → Bool
  | [] => true
  | [range] => range.1 ≤ range.2
  | range :: next :: rest =>
      range.1 ≤ range.2 && range.2 + 1 < next.1 && isAscending (next :: rest)

theorem contains_iff (characters : CharClass) (c : Char) :
    characters.contains c = true ↔
      ∃ range ∈ characters.ranges, range.1 ≤ c.toNat ∧ c.toNat ≤ range.2 := by
  simp [contains]

end CharClass

end Folio.Text
