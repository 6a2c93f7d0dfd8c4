import LocalizedText.Number.Text
import LocalizedText.Proofs.Number.IntegerPart

/-!
# The text of whole numbers

The coarsest grid that has a point in the interval of a whole number is the one of the whole numbers
or coarser, since the number itself is on that grid. So its shortest decimal is the number itself or
a multiple of ten. Up to `2 ^ 54` the interval reaches no other whole number, or only odd ones, and
the decimal is the number itself; from `10 ^ 17` on the digits do not suffice for the grid of the
whole numbers. Below `10 ^ 21` the decimal is written as a whole number.
-/

namespace LocalizedText

/-- What is shown for a whole number: itself, unless digits are missing at its end. -/
structure ShowsWhole (number shown : ℕ) : Prop where
  same_or_ten : shown = number ∨ 10 ∣ shown
  same : number < 2 ^ 54 → shown = number
  ten : 10 ^ 17 ≤ number → 10 ∣ shown

namespace Magnitude

variable {magnitude bound : Magnitude} {number : ℚ}

theorem lowerReach_pos (positive : 0 < magnitude.units) : 0 < magnitude.lowerReach := by
  by_contra nothing
  have most := magnitude.units_le_lowerReach
  omega

/-- A magnitude is in its own interval. -/
theorem covers_value (positive : 0 < magnitude.units) : magnitude.Covers magnitude.value := by
  apply covers_of_near
  have reach : (0 : ℚ) < magnitude.lowerReach := by exact_mod_cast lowerReach_pos positive
  rw [value, div_mul_cancel₀ _ cast_unitsPerOne_pos.ne', sub_self, abs_zero]
  exact reach

/-- The interval of a magnitude reaches half of its spacing to each side at most. -/
theorem Covers.abs_sub_le (covered : magnitude.Covers number) :
    2 * unitsPerOne * |number - magnitude.value| ≤ magnitude.spacing := by
  have reach : (magnitude.lowerReach : ℚ) ≤ 2 * magnitude.spacing := by
    exact_mod_cast magnitude.lowerReach_le
  have exact : magnitude.value * unitsPerOne = magnitude.units :=
    div_mul_cancel₀ _ cast_unitsPerOne_pos.ne'
  have scaled : unitsPerOne * |number - magnitude.value| =
      |number * unitsPerOne - magnitude.units| := by
    rw [← exact, ← sub_mul, abs_mul, Nat.abs_cast, mul_comm]
  have near : |number * unitsPerOne - magnitude.units| ≤ magnitude.spacing / 2 := by
    unfold Covers at covered
    rw [abs_le]
    split at covered
    · constructor <;> linarith [covered.1, covered.2]
    · constructor <;> linarith [covered.1, covered.2]
  linarith

/-- What is in the interval of a magnitude is below every greater magnitude. -/
theorem Covers.lt_value (covered : magnitude.Covers number) (less : magnitude.units < bound.units) :
    number < bound.value := by
  have apart : (4 * magnitude.units + 2 * magnitude.spacing + bound.lowerReach : ℚ) ≤
      4 * bound.units := by
    exact_mod_cast (ends_le less).1
  have reach : (0 : ℚ) < bound.lowerReach := by
    exact_mod_cast lowerReach_pos (Nat.zero_lt_of_lt less)
  rw [value, lt_div_iff₀ cast_unitsPerOne_pos]
  unfold Covers at covered
  split at covered
  · linarith [covered.2]
  · linarith [covered.2]

/-- A number that reaches a power of ten has more digits than its exponent before the point. -/
theorem lt_decimalPoint (exponent : ℕ) (reached : 10 ^ exponent ≤ magnitude.integerPart) :
    exponent < magnitude.decimalPoint := by
  have least : 10 ^ (exponent + decimalScale) ≤ magnitude.scaled := by
    rw [scaled, Nat.le_div_iff_mul_le unitsPerOne_pos, pow_add, mul_right_comm]
    apply Nat.mul_le_mul_right
    exact (Nat.mul_le_mul_right unitsPerOne reached).trans (Nat.div_mul_le_self _ _)
  have most := (DecimalLiteral.pow_decimalLength ((Nat.pow_pos (by decide)).trans_le least)).2
  have longer := (Nat.pow_lt_pow_iff_right (by decide)).mp (least.trans_lt most)
  rw [decimalPoint]
  omega

/-- The spacing grows with the binary digits beyond 53. -/
theorem spacing_le_of_integerPart_lt (exponent : ℕ)
    (small : magnitude.integerPart < 2 ^ (53 + exponent)) :
    magnitude.spacing ≤ 2 ^ exponent * unitsPerOne := by
  rcases exists_unitsPerOne_eq with ⟨shift, isPower⟩
  rw [integerPart, Nat.div_lt_iff_lt_mul unitsPerOne_pos, isPower, ← pow_add] at small
  rw [isPower, ← pow_add, spacing]
  apply Nat.pow_le_pow_right (by decide)
  rcases Nat.eq_zero_or_pos magnitude.units with zero | positive
  · simp [zero]
  · have logarithm := (Nat.log2_lt positive.ne').mpr small
    omega

theorem exponent_of_nearestOnGrid? {tie : DecimalTie} {exponent : ℤ} {decimal : Decimal}
    (found : magnitude.nearestOnGrid? tie exponent = some decimal) :
    decimal.exponent = exponent := by
  simp only [nearestOnGrid?] at found
  split at found <;> cases found <;> rfl

/-- `10 ^ 21` is a double, so that the interval of a lesser one does not reach it. -/
theorem Covers.lt_pow {shown : ℕ} (covered : magnitude.Covers shown)
    (small : magnitude.value < 10 ^ 21) : shown < 10 ^ 21 := by
  obtain ⟨bound, isBound⟩ : ∃ bound : Magnitude, bound.units = 10 ^ 21 * unitsPerOne :=
    ⟨⟨10 ^ 21 * unitsPerOne, by decide +kernel⟩, rfl⟩
  have value : bound.value = (10 ^ 21 : ℕ) := value_eq_iff.mpr isBound
  rw [← Nat.cast_lt (α := ℚ), ← value]
  apply covered.lt_value
  rw [Magnitude.value, div_lt_iff₀ cast_unitsPerOne_pos] at small
  rw [isBound]
  generalize unitsPerOne = unit at small ⊢
  exact_mod_cast small

theorem units_pos_of_integerPart_pos (positive : 0 < magnitude.integerPart) :
    0 < magnitude.units :=
  positive.trans_le (Nat.div_le_self _ _)

/-- On the grid of the whole numbers, a whole number is taken for itself. -/
theorem nearestOnGrid?_zero (isIntegral : magnitude.isIntegral = true) (tie : DecimalTie)
    (positive : 0 < magnitude.integerPart) :
    magnitude.nearestOnGrid? tie 0 = some ⟨magnitude.integerPart, 0⟩ := by
  have unitsPos := units_pos_of_integerPart_pos positive
  have readsBack : magnitude.readsBack magnitude.integerPart 0 = true := by
    rw [readsBack_iff unitsPos, zpow_zero, mul_one, ← value_of_isIntegral isIntegral]
    exact covers_value unitsPos
  have rest : magnitude.units % unitsPerOne = 0 := by
    simpa [Magnitude.isIntegral] using isIntegral
  have steps : stepsOf magnitude.units 0 = (magnitude.units, unitsPerOne) := by
    simp [stepsOf]
  have nothing : unitsPerOne ≠ 0 := unitsPerOne_pos.ne'
  simp only [nearestOnGrid?, steps, rest, mul_zero]
  rw [integerPart] at readsBack ⊢
  rw [readsBack]
  cases magnitude.readsBack (magnitude.units / unitsPerOne + 1) 0 with
  | false => rfl
  | true => simp [nothing]

/--
The shortest decimal of a whole number is a whole number: itself, or one that ends in zeros. It does
end in zeros where seventeen digits are not enough.
-/
theorem shortest_of_isIntegral (isIntegral : magnitude.isIntegral = true) (tie : DecimalTie)
    (positive : 0 < magnitude.integerPart) :
    ∃ digits zeros : ℕ, magnitude.shortest tie = ⟨digits, zeros⟩ ∧
      (zeros = 0 → digits = magnitude.integerPart) ∧
      (10 ^ 17 ≤ magnitude.integerPart → zeros ≠ 0) := by
  have point : 0 < magnitude.decimalPoint :=
    lt_decimalPoint 0 (by rw [pow_zero]; exact positive)
  rcases exists_grid_of_shortest (units_pos_of_integerPart_pos positive) tie with
    ⟨index, few, onGrid, coarser⟩
  have exponent := exponent_of_nearestOnGrid? onGrid
  have onWhole (whole : ℕ) (isWhole : magnitude.decimalPoint - 1 - whole = 0) :
      magnitude.nearestOnGrid? tie (magnitude.decimalPoint - 1 - whole) =
        some ⟨magnitude.integerPart, 0⟩ := by
    rw [isWhole]
    exact nearestOnGrid?_zero isIntegral tie positive
  have notFiner : 0 ≤ magnitude.decimalPoint - 1 - index := by
    by_contra finer
    have missing := coarser (magnitude.decimalPoint - 1).toNat (by omega)
    rw [onWhole _ (by omega)] at missing
    cases missing
  rcases Int.eq_ofNat_of_zero_le notFiner with ⟨zeros, isExponent⟩
  refine ⟨(magnitude.shortest tie).digits, zeros, ?_, ?_, ?_⟩
  · rw [← isExponent, ← exponent]
  · rintro rfl
    rw [onWhole index isExponent] at onGrid
    exact congrArg Decimal.digits (Option.some.inj onGrid).symm
  · rintro large rfl
    have many := lt_decimalPoint 17 large
    rw [maxShortestDigits] at few
    omega

/-- A whole number in the interval of another one is no further from it than half the spacing. -/
theorem Covers.two_mul_le {shown distance : ℕ} (covered : magnitude.Covers shown)
    (isIntegral : magnitude.isIntegral = true)
    (spacing : magnitude.spacing ≤ distance * unitsPerOne) :
    2 * shown ≤ 2 * magnitude.integerPart + distance ∧
      2 * magnitude.integerPart ≤ 2 * shown + distance := by
  have near := covered.abs_sub_le
  have spacing : (magnitude.spacing : ℚ) ≤ distance * unitsPerOne := by exact_mod_cast spacing
  rw [value_of_isIntegral isIntegral] at near
  have close : 2 * |(shown : ℚ) - magnitude.integerPart| ≤ distance := by
    apply le_of_mul_le_mul_right _ cast_unitsPerOne_pos
    linarith
  have bounds := abs_le.mp (show |(shown : ℚ) - magnitude.integerPart| ≤ distance / 2 by linarith)
  constructor
  · have most : (2 * shown : ℚ) ≤ 2 * magnitude.integerPart + distance := by linarith [bounds.2]
    exact_mod_cast most
  · have least : (2 * magnitude.integerPart : ℚ) ≤ 2 * shown + distance := by linarith [bounds.1]
    exact_mod_cast least

/--
Up to `2 ^ 54` no other whole number in the interval of a whole number is a multiple of ten: only
neighbours of even numbers are close enough.
-/
theorem Covers.eq_integerPart {shown : ℕ} (covered : magnitude.Covers shown)
    (isIntegral : magnitude.isIntegral = true) (small : magnitude.integerPart < 2 ^ 54)
    (ten : 10 ∣ shown) :
    shown = magnitude.integerPart := by
  by_cases exact : magnitude.integerPart < 2 ^ 53
  · have close := covered.two_mul_le isIntegral (spacing_le_of_integerPart_lt 0 exact)
    omega
  · have close := covered.two_mul_le isIntegral (spacing_le_of_integerPart_lt 1 small)
    have even : 2 ∣ magnitude.integerPart := by
      rcases exists_unitsPerOne_eq with ⟨shift, isPower⟩
      have units := isIntegral_iff.mp isIntegral
      rw [isPower] at units
      have multiple : 2 ^ (shift + 1) ∣ magnitude.units := by
        apply two_pow_dvd_units
        rw [← units, pow_succ, mul_assoc, mul_comm]
        exact Nat.mul_le_mul_right _ (not_lt.mp exact)
      rw [← units, pow_succ, mul_comm] at multiple
      exact Nat.dvd_of_mul_dvd_mul_right (Nat.two_pow_pos shift) multiple
    omega

/-- The shortest decimal of a whole number, written out, is what is shown for it. -/
theorem exists_showsWhole (isIntegral : magnitude.isIntegral = true)
    (positive : 0 < magnitude.integerPart) (tie : DecimalTie) :
    ∃ digits zeros : ℕ, magnitude.shortest tie = ⟨digits, zeros⟩ ∧ 0 < digits ∧
      magnitude.Covers (digits * 10 ^ zeros : ℕ) ∧
      ShowsWhole magnitude.integerPart (digits * 10 ^ zeros) := by
  have unitsPos := units_pos_of_integerPart_pos positive
  rcases shortest_of_isIntegral isIntegral tie positive with
    ⟨digits, zeros, shortest, exact, large⟩
  have covered := covers_shortest unitsPos tie
  have digitsPos := digits_shortest_pos unitsPos tie
  have whole : Decimal.value ⟨digits, zeros⟩ = (digits * 10 ^ zeros : ℕ) := by
    simp [Decimal.value]
  rw [shortest, whole] at covered
  rw [shortest] at digitsPos
  have ten (more : zeros ≠ 0) : 10 ∣ digits * 10 ^ zeros :=
    dvd_mul_of_dvd_right (dvd_pow_self 10 more) digits
  have same_or_ten : digits * 10 ^ zeros = magnitude.integerPart ∨ 10 ∣ digits * 10 ^ zeros := by
    rcases Nat.eq_zero_or_pos zeros with rfl | more
    · left
      rw [exact rfl, pow_zero, mul_one]
    · exact .inr (ten more.ne')
  refine ⟨digits, zeros, shortest, digitsPos, covered, same_or_ten, ?_, ten ∘ large⟩
  intro small
  exact same_or_ten.elim id (covered.eq_integerPart isIntegral small)

end Magnitude

namespace Numeral

/-- Zeros at the end of digits are filled in again when the point is not before them. -/
theorem ofDigits_trimZeros {digits : List Char} (nonempty : digits ≠ []) (zeros : ℕ) :
    ofDigits (trimZeros digits) (zeros + digits.length) =
      ⟨digits ++ List.replicate zeros '0', []⟩ := by
  have trimmed := trimZeros_append digits
  have shorter := congrArg List.length trimmed
  rw [List.length_append, List.length_replicate] at shorter
  have positive := List.length_pos_iff.mpr nonempty
  have whole : ((zeros : ℤ) + digits.length).toNat = zeros + digits.length := by omega
  have filled : zeros + digits.length - (trimZeros digits).length =
      digits.length - (trimZeros digits).length + zeros := by
    omega
  rw [ofDigits, if_neg (by omega)]
  simp only [whole, filled]
  rw [List.take_of_length_le (by omega), List.drop_of_length_le (by omega), List.replicate_add,
    ← List.append_assoc, trimmed]

end Numeral

namespace DoubleText

theorem toDigits_mul_pow {digits : ℕ} (positive : 0 < digits) (zeros : ℕ) :
    Nat.toDigits 10 (digits * 10 ^ zeros) =
      Nat.toDigits 10 digits ++ List.replicate zeros '0' := by
  induction zeros with
  | zero => simp
  | succ zeros ih =>
      have power : 0 < 10 ^ zeros := Nat.pow_pos (by decide)
      have joined := Nat.toDigits_append_toDigits (b := 10) (d := 0) (by decide)
        (Nat.mul_pos positive power) (by decide)
      rw [ih, Nat.toDigits_zero, Nat.add_zero, List.append_assoc] at joined
      rw [pow_succ, ← mul_assoc, mul_comm _ 10, ← joined, List.replicate_succ']

/-- A decimal without a fraction is written as a whole number when it is short enough. -/
theorem writeDecimal_display {digits zeros : ℕ} (positive : 0 < digits)
    (small : digits * 10 ^ zeros < 10 ^ 21) :
    display.writeDecimal ⟨digits, zeros⟩ = Nat.toDigits 10 (digits * 10 ^ zeros) := by
  have length := (Nat.length_toDigits_le_iff (by decide) (by decide)).mpr small
  rw [toDigits_mul_pow positive, List.length_append, List.length_replicate] at length
  have nonempty : 0 < (Nat.toDigits 10 digits).length := Nat.length_toDigits_pos
  have positional : display.leastPositional ≤ (zeros : ℤ) + (Nat.toDigits 10 digits).length - 1 ∧
      (zeros : ℤ) + (Nat.toDigits 10 digits).length - 1 ≤ display.greatestPositional := by
    simp only [display]
    omega
  rw [toDigits_mul_pow positive, writeDecimal]
  simp only [if_pos positional, Numeral.ofDigits_trimZeros Nat.toDigits_ne_nil]
  rfl

end DoubleText

namespace Double

variable {magnitude : Magnitude}

/-- A whole number below `10 ^ 21` is shown as a sign and digits. -/
theorem exists_display (negative : Bool) (isIntegral : magnitude.isIntegral = true)
    (small : magnitude.value < 10 ^ 21) :
    ∃ shown, ShowsWhole magnitude.integerPart shown ∧
      (finite negative magnitude).display =
        (if (finite negative magnitude).isBelowZero then "-" else "") ++
          String.ofList (Nat.toDigits 10 shown) := by
  rcases Nat.eq_zero_or_pos magnitude.integerPart with zero | positive
  · have units : magnitude.units = 0 := by
      rw [← Magnitude.isIntegral_iff.mp isIntegral, zero, zero_mul]
    refine ⟨0, ⟨.inl zero.symm, fun _ => zero.symm, fun _ => dvd_zero 10⟩, ?_⟩
    simp [display, DoubleText.write, DoubleText.display, isBelowZero, units]
  · have unitsPos := Magnitude.units_pos_of_integerPart_pos positive
    rcases Magnitude.exists_showsWhole isIntegral positive DoubleText.display.tie with
      ⟨digits, zeros, shortest, digitsPos, covered, shows⟩
    refine ⟨_, shows, ?_⟩
    rw [display, DoubleText.write, if_neg unitsPos.ne', shortest,
      DoubleText.writeDecimal_display digitsPos (covered.lt_pow small)]
    cases negative <;> simp [isBelowZero, unitsPos.ne']

end Double

end LocalizedText
