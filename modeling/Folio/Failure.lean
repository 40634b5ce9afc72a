import Folio.Text.Numeral

/-!
# Failures

Work on a document ends without a result for one of two reasons.  Either the
document is refused, with a cause that belongs to the work at hand, or a number
in it is written with digits that cannot be converted.  The second is no
statement about the document, so it is kept apart from every cause.
-/

namespace Folio

inductive Failure (Cause : Type) where
  | refused (cause : Cause)
  /-- A number in the document cannot be converted. -/
  | numeral (fault : Text.NumeralFault)
  deriving DecidableEq, Repr

namespace Failure

variable {Cause Wider : Type}

/-- The same failure with its cause seen as one of a wider kind. -/
def map (widen : Cause → Wider) : Failure Cause → Failure Wider
  | refused cause => refused (widen cause)
  | numeral fault => numeral fault

/-- The wording of a failure, given that of its cause. -/
def message (describe : Cause → String) : Failure Cause → String
  | refused cause => describe cause
  | numeral fault => fault.message

end Failure

end Folio
