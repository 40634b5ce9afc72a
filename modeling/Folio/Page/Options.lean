/-!
# Options of a page

The caller chooses the shape of the output and what is added to the page.
-/

namespace Folio

structure Options where
  bodyOnly : Bool
  /-- Begin the body with a heading that shows the title. -/
  titleHeading : Bool
  bodyClasses : List String
  /-- Addresses of further style sheets, in order. -/
  stylesheets : List String
  pretty : Bool
  deriving DecidableEq, Repr

def Options.standard : Options := ⟨false, false, [], [], true⟩

end Folio
