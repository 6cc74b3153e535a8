import EventRules.Number.Decimal
import EventRules.Proofs.Number.Exact

/-!
# `EventRules.Proofs.Number.Decimal`: the number that a numeral denotes

The digits before the point are a whole number, and those after it are so many
parts of a power of ten. `Numeral.value` is that number with its sign. The program
takes all the digits together as one whole number over the power of ten, which
comes to the same (`Numeral.value_eq`). So the double of a numeral is what the
number is rounded to (`Numeral.isRounded_toDouble`).
-/

set_option autoImplicit false

namespace EventRules

theorem digitsValue_append (first second : List Char) :
    digitsValue (first ++ second) = Nat.ofDigitChars 10 second (digitsValue first) :=
  Nat.ofDigitChars_append 0

namespace Numeral

/-- The number without its sign. -/
def magnitude (numeral : Numeral) : ℚ :=
  Nat.ofDigitChars 10 numeral.whole 0
    + Nat.ofDigitChars 10 numeral.fraction 0 / 10 ^ numeral.fraction.length

/-- The number that the numeral denotes. -/
def value (numeral : Numeral) : ℚ :=
  if numeral.negative then -numeral.magnitude else numeral.magnitude

theorem magnitude_eq (numeral : Numeral) :
    numeral.magnitude
      = digitsValue (numeral.whole ++ numeral.fraction)
          / (Nat.pow 10 numeral.fraction.length : Nat) := by
  have hdigits : digitsValue (numeral.whole ++ numeral.fraction)
      = 10 ^ numeral.fraction.length * Nat.ofDigitChars 10 numeral.whole 0
        + Nat.ofDigitChars 10 numeral.fraction 0 := by
    rw [digitsValue_append, Nat.ofDigitChars_eq_ofDigitChars_zero]
    rfl
  have hpower : (10 : ℚ) ^ numeral.fraction.length ≠ 0 := pow_ne_zero _ (by norm_num)
  rw [magnitude, hdigits, Nat.pow_eq]
  push_cast
  rw [add_div, mul_div_cancel_left₀ _ hpower]

theorem value_eq (numeral : Numeral) :
    numeral.value
      = Double.signed numeral.negative (digitsValue (numeral.whole ++ numeral.fraction))
          / (Nat.pow 10 numeral.fraction.length : Nat) := by
  rw [value, magnitude_eq, Double.signed]
  cases numeral.negative with
  | true =>
    simp only [if_true]
    push_cast
    rw [neg_div]
  | false => rfl

/-- The double of a numeral is what the number is rounded to that it denotes. -/
theorem isRounded_toDouble (numeral : Numeral) :
    numeral.toDouble.IsRounded numeral.negative numeral.value := by
  rw [value_eq, toDouble]
  exact Double.isRounded_ofQuotient _ _ (Nat.pow_pos (by decide))

end Numeral

end EventRules
