import LocalizedText.Proofs.Number.ShortestDecimal
import Mathlib.Algebra.Order.Ring.Rat
import Mathlib.Tactic.Ring

/-!
# Rounding to fraction digits

A double rounded to some fraction digits is the multiple of the last digit's place nearest to its
exact value, and the even one of two equally near. Dropping zeros at the end of the fraction and
filling zeros in before the integer part only change how many digits there are: the numeral still
denotes that multiple.
-/

namespace LocalizedText

/-- A natural number is nearest to a rational one, and even when another one is equally near. -/
structure IsNearest (nearest : ℕ) (number : ℚ) : Prop where
  near : ∀ other : ℕ, |number - nearest| ≤ |number - other|
  even : ∀ other : ℕ, other ≠ nearest → |number - other| = |number - nearest| → nearest % 2 = 0

/-- The rational number that a magnitude is. -/
def Magnitude.value (magnitude : Magnitude) : ℚ :=
  magnitude.units / unitsPerOne

section Nearest

variable {number : ℚ} {nearest : ℕ}

/-- Any other natural number is at least as far from what is half a unit away at most. -/
theorem abs_sub_le_of_half {other : ℕ} (near : |number - nearest| ≤ 1 / 2)
    (apart : other ≠ nearest) : 1 / 2 ≤ |number - other| := by
  have distance : (1 : ℚ) ≤ |(other : ℚ) - nearest| := by
    have whole : (other : ℤ) - nearest ≠ 0 := by omega
    exact_mod_cast Int.one_le_abs whole
  have triangle := abs_sub_le (other : ℚ) number nearest
  rw [abs_sub_comm (other : ℚ) number] at triangle
  linarith

theorem isNearest_of_half (near : |number - nearest| ≤ 1 / 2)
    (even : |number - nearest| = 1 / 2 → nearest % 2 = 0) : IsNearest nearest number where
  near := by
    intro other
    by_cases same : other = nearest
    · rw [same]
    · exact near.trans (abs_sub_le_of_half near same)
  even := by
    intro other apart equal
    apply even
    have far := abs_sub_le_of_half near apart
    linarith

end Nearest

/-- A tie is rounded to an even number. -/
theorem roundQuotient_even (numerator : ℕ) {denominator : ℕ} (positive : 0 < denominator)
    (tie : 2 * numerator = 2 * (roundQuotient numerator denominator * denominator) + denominator ∨
      2 * (roundQuotient numerator denominator * denominator) = 2 * numerator + denominator) :
    roundQuotient numerator denominator % 2 = 0 := by
  have split := Nat.div_add_mod numerator denominator
  have small := Nat.mod_lt numerator positive
  rw [Nat.mul_comm] at split
  have parity := Nat.mod_two_eq_zero_or_one (numerator / denominator)
  unfold roundQuotient at tie ⊢
  simp only at tie ⊢
  split at tie
  · omega
  · split at tie
    · rw [Nat.add_mul, Nat.one_mul] at tie
      omega
    · next notBelow notAbove =>
        rw [if_neg notBelow, if_neg notAbove]
        omega

/-- The difference of a quotient to its rounding, over the denominator. -/
theorem sub_roundQuotient (numerator : ℕ) {denominator : ℕ} (positive : 0 < denominator) :
    (numerator / denominator : ℚ) - roundQuotient numerator denominator =
      (numerator - roundQuotient numerator denominator * denominator) / denominator := by
  have nonzero : (denominator : ℚ) ≠ 0 := by exact_mod_cast positive.ne'
  field_simp

/-- A rounded quotient is off by one half at most. -/
theorem abs_sub_roundQuotient_le (numerator : ℕ) {denominator : ℕ} (positive : 0 < denominator) :
    |(numerator / denominator : ℚ) - roundQuotient numerator denominator| ≤ 1 / 2 := by
  have positiveCast : (0 : ℚ) < denominator := by exact_mod_cast positive
  rcases roundQuotient_error numerator positive with ⟨above, below⟩
  rw [sub_roundQuotient numerator positive, abs_div, abs_of_pos positiveCast,
    div_le_iff₀ positiveCast, abs_le]
  generalize roundQuotient numerator denominator = nearest at above below ⊢
  have aboveCast : 2 * ((nearest : ℚ) * denominator) ≤ 2 * numerator + denominator := by
    exact_mod_cast above
  have belowCast : 2 * (numerator : ℚ) ≤ 2 * (nearest * denominator) + denominator := by
    exact_mod_cast below
  constructor <;> linarith

theorem isNearest_roundQuotient (numerator : ℕ) {denominator : ℕ} (positive : 0 < denominator) :
    IsNearest (roundQuotient numerator denominator) (numerator / denominator) := by
  apply isNearest_of_half (abs_sub_roundQuotient_le numerator positive)
  intro half
  have positiveCast : (0 : ℚ) < denominator := by exact_mod_cast positive
  rw [sub_roundQuotient numerator positive, abs_div, abs_of_pos positiveCast,
    div_eq_iff positiveCast.ne'] at half
  apply roundQuotient_even numerator positive
  generalize roundQuotient numerator denominator = nearest at half ⊢
  rcases abs_choice ((numerator : ℚ) - nearest * denominator) with sign | sign
  · left
    rw [sign] at half
    have exact : 2 * (numerator : ℚ) = 2 * (nearest * denominator) + denominator := by linarith
    exact_mod_cast exact
  · right
    rw [sign] at half
    have exact : 2 * ((nearest : ℚ) * denominator) = 2 * numerator + denominator := by linarith
    exact_mod_cast exact

/-- A natural number does not start with a zero when it is written, unless it is zero. -/
theorem head?_toDigits {value : ℕ} (positive : 0 < value) :
    (Nat.toDigits 10 value).head? ≠ some '0' := by
  induction value using Nat.strongRecOn with
  | ind value inductionHypothesis =>
      rw [Nat.toDigits_eq_if (by decide)]
      split
      · next small =>
          have oneDigit : ∀ digit < 10, 0 < digit → [Nat.digitChar digit].head? ≠ some '0' := by
            decide
          exact oneDigit value small positive
      · next large =>
          have shorter := inductionHypothesis (value / 10) (by omega) (by omega)
          have notEmpty : Nat.toDigits 10 (value / 10) ≠ [] := by
            intro empty
            have lengthPos : 0 < (Nat.toDigits 10 (value / 10)).length := Nat.length_toDigits_pos
            simp [empty] at lengthPos
          rwa [List.head?_append_of_ne_nil _ notEmpty]

namespace Numeral

/-- The rational number that a numeral denotes. -/
def value (numeral : Numeral) : ℚ :=
  DecimalLiteral.digitsValue (numeral.integer ++ numeral.fraction) / 10 ^ numeral.fraction.length

/-- A numeral has no more digits than it needs or must have. -/
structure IsTrimmed (numeral : Numeral) (minimumInteger minimum maximum : ℕ) : Prop where
  isDigit : ∀ digit ∈ numeral.integer ++ numeral.fraction, digit.isDigit = true
  integer_pos : 0 < numeral.integer.length
  minimumInteger_le : minimumInteger ≤ numeral.integer.length
  noLeadingZero : max minimumInteger 1 < numeral.integer.length → numeral.integer.head? ≠ some '0'
  minimum_le : minimum ≤ numeral.fraction.length
  le_maximum : numeral.fraction.length ≤ maximum
  noTrailingZero : minimum < numeral.fraction.length → numeral.fraction.getLast? ≠ some '0'

section Scaled

variable (number places : ℕ)

/-- The digits of a scaled number, with zeros up to the one before the point. -/
theorem append_ofScaled :
    (ofScaled number places).integer ++ (ofScaled number places).fraction =
      List.replicate (places + 1 - (Nat.toDigits 10 number).length) '0' ++
        Nat.toDigits 10 number :=
  List.take_append_drop _ _

theorem isDigit_ofScaled :
    ∀ digit ∈ (ofScaled number places).integer ++ (ofScaled number places).fraction,
      digit.isDigit = true := by
  intro digit member
  rw [append_ofScaled, List.mem_append] at member
  rcases member with zero | digit
  · rw [List.eq_of_mem_replicate zero]
    rfl
  · exact Nat.isDigit_of_mem_toDigits (by decide) (by decide) digit

theorem length_fraction_ofScaled : (ofScaled number places).fraction.length = places := by
  simp only [ofScaled, List.length_drop, List.length_append, List.length_replicate]
  omega

theorem length_integer_ofScaled :
    (ofScaled number places).integer.length = max 1 ((Nat.toDigits 10 number).length - places) := by
  simp only [ofScaled, List.length_take, List.length_append, List.length_replicate]
  omega

/-- Zeros stand before the digits of a scaled number only to reach the digit before the point. -/
theorem noLeadingZero_ofScaled (several : 1 < (ofScaled number places).integer.length) :
    (ofScaled number places).integer.head? ≠ some '0' := by
  rw [length_integer_ofScaled] at several
  have noZeros : places + 1 - (Nat.toDigits 10 number).length = 0 := by omega
  have positive : 0 < number := by
    by_contra zero
    have single : number = 0 := by omega
    subst single
    simp at several
  have whole := append_ofScaled number places
  rw [noZeros, List.replicate_zero, List.nil_append] at whole
  have notEmpty : (ofScaled number places).integer ≠ [] := by
    intro empty
    have length := length_integer_ofScaled number places
    simp [empty] at length
    omega
  rw [← List.head?_append_of_ne_nil _ notEmpty, whole]
  exact head?_toDigits positive

theorem value_ofScaled : (ofScaled number places).value = number / 10 ^ places := by
  unfold value
  rw [append_ofScaled, length_fraction_ofScaled, DecimalLiteral.digitsValue_zeros_append,
    DecimalLiteral.digitsValue_toDigits]

end Scaled

section Trimming

variable (numeral : Numeral) (minimum : ℕ)

/-- Trimming takes only zeros from the end of the fraction. -/
theorem fraction_trimFraction :
    ∃ count, (numeral.trimFraction minimum).fraction ++ List.replicate count '0' =
      numeral.fraction := by
  have whole := trimZeros_append numeral.fraction
  unfold trimFraction
  generalize numeral.fraction.length - (trimZeros numeral.fraction).length = zeros at whole
  have enough := Nat.le_max_right minimum (trimZeros numeral.fraction).length
  generalize max minimum (trimZeros numeral.fraction).length = length at enough
  generalize trimZeros numeral.fraction = kept at whole enough
  have dropped : numeral.fraction.drop length = List.replicate (zeros - (length - kept.length)) '0' := by
    rw [← whole, List.drop_append, List.drop_of_length_le enough, List.nil_append,
      List.drop_replicate]
  refine ⟨zeros - (length - kept.length), ?_⟩
  rw [← dropped]
  exact List.take_append_drop _ _

theorem value_trimFraction : (numeral.trimFraction minimum).value = numeral.value := by
  rcases numeral.fraction_trimFraction minimum with ⟨count, split⟩
  have same : (numeral.trimFraction minimum).integer = numeral.integer := rfl
  unfold value
  rw [← split, same, ← List.append_assoc, DecimalLiteral.digitsValue_append_zeros,
    List.length_append, List.length_replicate, pow_add]
  push_cast
  field_simp

theorem value_padInteger : (numeral.padInteger minimum).value = numeral.value := by
  unfold value padInteger
  rw [List.append_assoc, DecimalLiteral.digitsValue_zeros_append]

/-- A fraction longer than it must be does not end with a zero when it is trimmed. -/
theorem noTrailingZero_trimFraction
    (longer : minimum < (numeral.trimFraction minimum).fraction.length) :
    (numeral.trimFraction minimum).fraction.getLast? ≠ some '0' := by
  have front : trimZeros numeral.fraction <+: numeral.fraction := ⟨_, trimZeros_append _⟩
  have trimmed : (numeral.trimFraction minimum).fraction = trimZeros numeral.fraction := by
    simp only [trimFraction, List.length_take] at longer ⊢
    have exact : max minimum (trimZeros numeral.fraction).length =
        (trimZeros numeral.fraction).length := by omega
    rw [exact]
    exact (List.prefix_iff_eq_take.mp front).symm
  rw [trimmed, trimZeros, List.getLast?_reverse]
  intro zero
  have stopped := List.head?_dropWhile_not (· == '0') numeral.fraction.reverse
  rw [zero] at stopped
  simp at stopped

theorem length_padInteger :
    (numeral.padInteger minimum).integer.length = max minimum numeral.integer.length := by
  simp only [padInteger, List.length_append, List.length_replicate]
  omega

end Trimming

/-- Rounding to fraction digits gives a numeral that has no more digits than it must have. -/
theorem isTrimmed_fixed (negative : Bool) (magnitude : Magnitude) {minimum maximum : ℕ}
    (ordered : minimum ≤ maximum) (minimumInteger : ℕ) :
    ((fixed (.finite negative magnitude) minimum maximum).padInteger minimumInteger).IsTrimmed
      minimumInteger minimum maximum := by
  simp only [fixed]
  generalize roundQuotient (magnitude.units * 10 ^ maximum) unitsPerOne = number
  have digits := isDigit_ofScaled number maximum
  have integerLength := length_integer_ofScaled number maximum
  have fractionLength := length_fraction_ofScaled number maximum
  have noLeading := noLeadingZero_ofScaled number maximum
  have noTrailing := (ofScaled number maximum).noTrailingZero_trimFraction minimum
  have length : (((ofScaled number maximum).trimFraction minimum).fraction).length =
      min (max minimum (trimZeros (ofScaled number maximum).fraction).length) maximum := by
    simp only [trimFraction, List.length_take, fractionLength]
  have front : ((ofScaled number maximum).trimFraction minimum).fraction <+:
      (ofScaled number maximum).fraction := List.take_prefix _ _
  have padded : (((ofScaled number maximum).trimFraction minimum).padInteger
      minimumInteger).integer.length =
        max minimumInteger (ofScaled number maximum).integer.length := by
    rw [length_padInteger]
    rfl
  refine ⟨?_, ?_, ?_, ?_, ?_, ?_, noTrailing⟩
  · intro digit member
    simp only [padInteger, List.append_assoc, List.mem_append] at member
    rcases member with zero | integer | fraction
    · rw [List.eq_of_mem_replicate zero]
      rfl
    · exact digits digit (List.mem_append_left _ integer)
    · exact digits digit (List.mem_append_right _ (front.subset fraction))
  · rw [padded]
    omega
  · rw [padded]
    omega
  · intro longer
    rw [padded] at longer
    have noZeros : minimumInteger - (ofScaled number maximum).integer.length = 0 := by omega
    have same : (((ofScaled number maximum).trimFraction minimum).padInteger minimumInteger).integer =
        (ofScaled number maximum).integer := by
      simp [padInteger, trimFraction, noZeros]
    rw [same]
    exact noLeading (by omega)
  · simp only [padInteger, length]
    omega
  · simp only [padInteger, length]
    omega

/-- Rounding to fraction digits denotes the multiple of the last place nearest to a magnitude. -/
theorem value_fixed (negative : Bool) (magnitude : Magnitude) (minimum maximum minimumInteger : ℕ) :
    ∃ nearest : ℕ, IsNearest nearest (magnitude.value * 10 ^ maximum) ∧
      ((fixed (.finite negative magnitude) minimum maximum).padInteger minimumInteger).value =
        nearest / 10 ^ maximum := by
  refine ⟨roundQuotient (magnitude.units * 10 ^ maximum) unitsPerOne, ?_, ?_⟩
  · have exact := isNearest_roundQuotient (magnitude.units * 10 ^ maximum) Magnitude.unitsPerOne_pos
    push_cast at exact
    rwa [mul_div_right_comm] at exact
  · rw [value_padInteger, fixed, value_trimFraction, value_ofScaled]

end Numeral

end LocalizedText
