import Folio.Text.Numeral

/-!
# Whole numbers that can be written out

The limit on digits holds in both directions: no text with more digits is read as a
number, and no number with more digits is written as a text.  The whole numbers of values
and of documents are those within the limit.  Reading yields no others, and one that was
computed beyond it could be put into no page and no message.
-/

namespace Folio

/-- A whole number with no more digits than can be written out. -/
structure Whole where
  value : Int
  few : (Nat.toDigits 10 value.natAbs).length ≤ Text.digitLimit
  deriving DecidableEq, Repr

namespace Whole

/-- A number within the limit on digits; zero for one beyond it. -/
def ofInt (value : Int) : Whole :=
  if few : (Nat.toDigits 10 value.natAbs).length ≤ Text.digitLimit then ⟨value, few⟩
  else ⟨0, by decide⟩

instance : IntCast Whole := ⟨ofInt⟩

instance : NatCast Whole := ⟨fun count => ofInt count⟩

instance {count : Nat} : OfNat Whole count := ⟨ofInt count⟩

instance : Neg Whole := ⟨fun number => ⟨-number.value, by rw [Int.natAbs_neg]; exact number.few⟩⟩

instance : ToString Whole := ⟨fun number => toString number.value⟩

/-- Within the limit a number is not changed. -/
theorem value_intCast {value : Int}
    (few : (Nat.toDigits 10 value.natAbs).length ≤ Text.digitLimit) :
    (value : Whole).value = value :=
  congrArg Whole.value (dif_pos few)

@[simp]
theorem intCast_value (number : Whole) : (number.value : Whole) = number :=
  dif_pos number.few

theorem value_natCast {count : Nat} (few : (Nat.toDigits 10 count).length ≤ Text.digitLimit) :
    (count : Whole).value = count :=
  @value_intCast count few

end Whole

end Folio
