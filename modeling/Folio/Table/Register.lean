import Folio.Markup.Place
import Folio.Table.Columns

/-!
# Tables and their register

Tables arrive as a declaration followed by one request per cell; nothing marks
the end of a row.  A register remembers the declared column count of each table
by where the table stands, and never writes it into the markup.  A cell goes to
the last table of its section, in a new row whenever the cells so far fill
whole rows.
-/

namespace Folio.Table

open Markup

/-- Where a table stands: the number of its section and its index among the
children there. -/
structure Position where
  sectionNumber : Nat
  index : Nat
  deriving DecidableEq, Repr

/-- The declared column counts of the tables opened so far. -/
structure Register where
  entries : List (Position × Nat)

def Register.empty : Register := ⟨[]⟩

def Register.columns? (register : Register) (position : Position) : Option Nat :=
  register.entries.lookup position

def cellTags : List String := ["th", "td"]

def newCell (header : Bool) : Node := .new () (if header then "th" else "td") []

def cellCount (table : Node) : Nat :=
  (table.descendants (·.isTagged cellTags)).length

/-- Put a cell into the last row of a table, or into a new row when there is
none or the cells so far fill whole rows. -/
def layCell (columns : Nat) (cell table : Node) : Node :=
  match table.lastChild? (·.isTagged ["tr"]) with
  | some (index, _) =>
      if cellCount table % columns = 0 then table.appendChild (newRow cell)
      else { table with children := table.children.modify index (·.appendChild cell) }
  | none => table.appendChild (newRow cell)
where
  newRow (cell : Node) : Node := (Element.new () "tr" []).appendChild cell

/-- Open a table at the end of a section.  A count that is refused leaves
section and register as they are. -/
def declare (register : Register) (sectionNumber : Nat) (current : Node)
    (declared : Content) : Except (Failure RenderError) (Register × Node) := do
  let columns ← columnCount declared
  let position : Position := ⟨sectionNumber, current.children.length⟩
  return (⟨(position, columns) :: register.entries⟩,
    current.appendChild (.new () "table" []))

def addCell (register : Register) (sectionNumber : Nat) (current : Node)
    (header : Bool) : Except RenderError Node :=
  match current.lastChild? (·.isTagged ["table"]) with
  | none => .error .noTable
  | some (index, _) =>
      match register.columns? ⟨sectionNumber, index⟩ with
      | none => .error .noTable
      | some columns =>
          .ok { current with
                children := current.children.modify index (layCell columns (newCell header)) }

end Folio.Table
