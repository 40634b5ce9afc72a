import Folio.Document.Line

/-!
# Documents

A document has lines and descriptive metadata: terms with their values, in the
order in which the terms were given.  Whether the metadata is shown is a
feature of the document.
-/

namespace Folio

structure Document where
  lines : List Line
  metadata : List (String × List String)
  /-- Whether the page describes itself by the metadata. -/
  showsMetadata : Bool
  deriving DecidableEq, Repr

namespace Document

/-- The values of a metadata term; an absent term has none. -/
def term (document : Document) (name : String) : List String :=
  (document.metadata.lookup name).getD []

/-- The title: the values of its term, or the empty text when there are
none. -/
def title (document : Document) : String :=
  ", ".intercalate (document.term "title")

end Document

end Folio
