import LocalizedText.Number.Power

/-!
# Rounding quotients

All rounding in the library is that of an exact quotient of natural numbers to the nearest value,
where of two equally near values the even one is taken: to a whole number, or to a number of so
many binary digits.
-/

namespace LocalizedText

/-- The whole number nearest to a quotient, and the even one of two equally near. -/
def roundQuotient (numerator denominator : Nat) : Nat :=
  let quotient := numerator / denominator
  let twice := 2 * (numerator % denominator)
  if twice < denominator then quotient
  else if denominator < twice then quotient + 1
  else quotient + quotient % 2

/--
The nearest whole number to a quotient that `bits` binary digits, followed by zeros, can write.
-/
def roundToBits (bits numerator denominator : Nat) : Nat :=
  let spacing := 2 ^ ((numerator / denominator).log2 + 1 - bits)
  roundQuotient numerator (denominator * spacing) * spacing

/-- A quotient without remainder is its own rounding. -/
theorem roundQuotient_mul_left (value : Nat) {denominator : Nat} (positive : 0 < denominator) :
    roundQuotient (value * denominator) denominator = value := by
  simp [roundQuotient, Nat.mul_div_cancel _ positive, positive]

/-- A rounding is at most half a unit away. -/
theorem roundQuotient_error (numerator : Nat) {denominator : Nat} (positive : 0 < denominator) :
    2 * (roundQuotient numerator denominator * denominator) ≤ 2 * numerator + denominator ∧
      2 * numerator ≤ 2 * (roundQuotient numerator denominator * denominator) + denominator := by
  have split := Nat.div_add_mod numerator denominator
  have small := Nat.mod_lt numerator positive
  rw [Nat.mul_comm] at split
  have parity := Nat.mod_two_eq_zero_or_one (numerator / denominator)
  unfold roundQuotient
  simp only
  split
  · omega
  · split
    · rw [Nat.add_mul, Nat.one_mul]
      omega
    · rcases parity with even | odd
      · rw [even, Nat.add_zero]
        omega
      · rw [odd, Nat.add_mul, Nat.one_mul]
        omega

end LocalizedText
