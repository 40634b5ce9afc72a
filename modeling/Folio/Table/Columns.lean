import Folio.Failure
import Folio.Render.Error

/-!
# Column counts

A table is declared with the number of its columns, as a number or as a text of
digits that may stand between blanks.  The count must be positive.
-/

namespace Folio.Table

/-- The number a column count stands for, if it is one: a text that looks
numeric is read, and a flag counts as no content. -/
def readCount : Content → Except Text.NumeralFault Content
  | .flag _ => .ok .absent
  | .text value =>
      if Text.looksNumeric value then
        (Text.readNumeral value).map fun count => .number count
      else .ok (.text value)
  | content => .ok content

def columnCount (declared : Content) : Except (Failure RenderError) Nat :=
  match readCount declared with
  | .error fault => .error (.numeral fault)
  | .ok (.number count) =>
      if 0 < count.value then .ok count.value.toNat
      else .error (.refused (.badColumnCount (.number count)))
  | .ok other => .error (.refused (.badColumnCount other))

end Folio.Table
