import LocalizedText.Proofs.Number.DecimalText
import LocalizedText.Proofs.Number.FixedPoint

/-!
# Rounding to significant digits

The decimal exponent of a magnitude is that of its first digit. So a quotient by the right power of
ten has as many integer digits as are asked for, and is rounded to the nearest whole number; when
that is one digit longer it is a power of ten, and ends in a zero that can be left out. The point is
then placed among the digits, with zeros where they do not reach it.
-/

namespace LocalizedText

/--
A positive number is rounded to so many significant digits: its first digit has the place of some
power of ten, and of the multiples of the place of the last digit it is rounded to the nearest one,
the even one of two equally near.
-/
def IsSignificantRounding (count : ℕ) (number rounded : ℚ) : Prop :=
  ∃ (exponent : ℤ) (nearest : ℕ),
    10 ^ exponent ≤ number ∧ number < 10 ^ (exponent + 1) ∧
      IsNearest nearest (number / 10 ^ (exponent + 1 - count)) ∧
      rounded = nearest * 10 ^ (exponent + 1 - count)

section Nearest

variable {number : ℚ} {nearest bound : ℕ}

/-- A number is not rounded beyond a natural number that it does not exceed. -/
theorem IsNearest.le (isNearest : IsNearest nearest number) (below : number ≤ bound) :
    nearest ≤ bound := by
  by_contra above
  have near := isNearest.near bound
  have more : (bound : ℚ) < nearest := by exact_mod_cast Nat.lt_of_not_le above
  rw [abs_of_nonpos (by linarith), abs_of_nonpos (by linarith)] at near
  linarith

/-- A number is not rounded below a natural number that it reaches. -/
theorem IsNearest.ge (isNearest : IsNearest nearest number) (above : (bound : ℚ) ≤ number) :
    bound ≤ nearest := by
  by_contra below
  have near := isNearest.near bound
  have less : (nearest : ℚ) < bound := by exact_mod_cast Nat.lt_of_not_le below
  rw [abs_of_nonneg (by linarith), abs_of_nonneg (by linarith)] at near
  linarith

theorem IsNearest.le_of_lt_half (isNearest : IsNearest nearest number)
    (below : number < bound + 1 / 2) : nearest ≤ bound := by
  rcases le_total number bound with whole | above
  · exact isNearest.le whole
  · by_contra beyond
    have near := isNearest.near bound
    have next : (bound + 1 : ℚ) ≤ nearest := by exact_mod_cast Nat.lt_of_not_le beyond
    rw [abs_of_nonpos (by linarith), abs_of_nonneg (by linarith)] at near
    linarith

/-- From one half below an even number on, numbers are rounded up to it. -/
theorem IsNearest.eq_of_half_le (isNearest : IsNearest nearest number) (even : bound % 2 = 0)
    (above : bound - 1 / 2 ≤ number) (below : number ≤ bound) : nearest = bound := by
  by_contra other
  have most := isNearest.le below
  have next : (nearest + 1 : ℚ) ≤ bound := by exact_mod_cast Nat.lt_of_le_of_ne most other
  have near := isNearest.near bound
  rw [abs_of_nonneg (by linarith), abs_of_nonpos (by linarith)] at near
  -- Only one number is left that is as near, and it is odd.
  have asNear : |number - bound| = |number - nearest| := by
    rw [abs_of_nonpos (by linarith), abs_of_nonneg (by linarith)]
    linarith
  have isEven := isNearest.even bound (Ne.symm other) asNear
  have previous : (nearest + 1 : ℚ) = bound := by linarith
  have parity : nearest + 1 = bound := by exact_mod_cast previous
  omega

/-- Rounding to significant digits does not go beyond a power of ten that the number is below. -/
theorem IsSignificantRounding.le_zpow {count : ℕ} {rounded : ℚ}
    (rounding : IsSignificantRounding count number rounded) {power : ℤ}
    (below : number < 10 ^ power) : rounded ≤ 10 ^ power := by
  rcases rounding with ⟨exponent, nearest, least, most, isNearest, rfl⟩
  have step : (0 : ℚ) < 10 ^ (exponent + 1 - count) := by positivity
  have whole : (10 : ℚ) ^ count * 10 ^ (exponent + 1 - count) = 10 ^ (exponent + 1) := by
    rw [← zpow_natCast, ← zpow_add₀ (by norm_num), add_sub_cancel]
  have few : nearest ≤ 10 ^ count := by
    apply isNearest.le
    rw [div_le_iff₀ step, Nat.cast_pow, Nat.cast_ofNat, whole]
    exact most.le
  have room : exponent + 1 ≤ power :=
    (zpow_lt_zpow_iff_right₀ (by norm_num)).mp (least.trans_lt below)
  calc (nearest : ℚ) * 10 ^ (exponent + 1 - count)
      ≤ 10 ^ count * 10 ^ (exponent + 1 - count) := by
        apply mul_le_mul_of_nonneg_right _ step.le
        exact_mod_cast few
    _ = 10 ^ (exponent + 1) := whole
    _ ≤ 10 ^ power := zpow_le_zpow_right₀ (by norm_num) room

end Nearest

namespace Magnitude

variable {magnitude : Magnitude}

/-- A magnitude is below the power of ten at its decimal exponent. -/
theorem lt_zpow_decimalPoint (positive : 0 < magnitude.units) :
    magnitude.value < 10 ^ magnitude.decimalPoint := by
  have below := (DecimalLiteral.pow_decimalLength (scaled_pos positive)).2
  rw [scaled, Nat.div_lt_iff_lt_mul unitsPerOne_pos] at below
  have power : (10 : ℚ) ^ magnitude.decimalPoint * 10 ^ decimalScale =
      10 ^ DecimalLiteral.decimalLength magnitude.scaled := by
    rw [decimalPoint, ← zpow_natCast (10 : ℚ) decimalScale, ← zpow_add₀ (by norm_num),
      sub_add_cancel, zpow_natCast]
  have cast := Nat.cast_lt (α := ℚ).mpr below
  simp only [Nat.cast_mul, Nat.cast_pow, Nat.cast_ofNat] at cast
  rw [← scaled, ← power, mul_right_comm] at cast
  rw [value, div_lt_iff₀ (Nat.cast_pos.mpr unitsPerOne_pos)]
  exact lt_of_mul_lt_mul_right cast (pow_pos (by norm_num) decimalScale).le

theorem zpow_le_value (positive : 0 < magnitude.units) :
    10 ^ (magnitude.decimalPoint - 1) ≤ magnitude.value := by
  rw [value, le_div_iff₀ (Nat.cast_pos.mpr unitsPerOne_pos)]
  exact zpow_decimalPoint_le positive

theorem denominator_stepsOf_pos (units : ℕ) (exponent : ℤ) : 0 < (stepsOf units exponent).2 :=
  Nat.mul_pos unitsPerOne_pos (Nat.pow_pos (by decide))

/-- The steps of a magnitude are its quotient by the power of ten. -/
theorem stepsOf_eq (magnitude : Magnitude) (exponent : ℤ) :
    ((stepsOf magnitude.units exponent).1 / (stepsOf magnitude.units exponent).2 : ℚ) =
      magnitude.value / 10 ^ exponent := by
  have power := zpow_mul_pow_toNat exponent
  have shifted : (10 : ℚ) ^ (-exponent).toNat ≠ 0 := by positivity
  simp only [stepsOf, Nat.cast_mul, Nat.cast_pow, Nat.cast_ofNat, value]
  rw [← power, ← mul_assoc, mul_div_mul_right _ _ shifted, div_div]

end Magnitude

namespace Numeral

variable {numeral : Numeral} {count : ℕ}

/-- An integer part is a single zero, or has no zero in front. -/
def HasPlainInteger (numeral : Numeral) : Prop :=
  numeral.integer = ['0'] ∨ numeral.integer ≠ [] ∧ numeral.integer.head? ≠ some '0'

section Value

theorem value_lt_one (all : ∀ digit ∈ numeral.integer ++ numeral.fraction, digit.isDigit = true)
    (zero : numeral.integer = ['0']) : numeral.value < 1 := by
  have fraction := DecimalLiteral.digitsValue_lt fun digit member =>
    all digit (List.mem_append_right _ member)
  have dropped := DecimalLiteral.digitsValue_zeros_append 1 numeral.fraction
  rw [List.replicate_one] at dropped
  rw [value, zero, dropped, div_lt_one (by positivity)]
  exact_mod_cast fraction

theorem one_le_value (all : ∀ digit ∈ numeral.integer ++ numeral.fraction, digit.isDigit = true)
    (nonempty : numeral.integer ≠ []) (noLeadingZero : numeral.integer.head? ≠ some '0') :
    1 ≤ numeral.value := by
  have positive := DecimalLiteral.digitsValue_pos
    (fun digit member => all digit (List.mem_append_left _ member)) nonempty noLeadingZero
  rw [value, DecimalLiteral.digitsValue_append, one_le_div (by positivity)]
  have least : 10 ^ numeral.fraction.length ≤
      10 ^ numeral.fraction.length * DecimalLiteral.digitsValue numeral.integer +
        DecimalLiteral.digitsValue numeral.fraction :=
    (Nat.le_mul_of_pos_right _ positive).trans (Nat.le_add_right _ _)
  exact_mod_cast least

/-- Below one an integer part is a single zero, and from one on it starts with another digit. -/
theorem HasPlainInteger.integer (plain : numeral.HasPlainInteger)
    (all : ∀ digit ∈ numeral.integer ++ numeral.fraction, digit.isDigit = true) :
    (numeral.value < 1 → numeral.integer = ['0']) ∧
      (1 ≤ numeral.value → numeral.integer ≠ [] ∧ numeral.integer.head? ≠ some '0') := by
  rcases plain with zero | ⟨nonempty, noLeadingZero⟩
  · have below := value_lt_one all zero
    exact ⟨fun _ => zero, fun above => absurd above (not_le.mpr below)⟩
  · have above := one_le_value all nonempty noLeadingZero
    exact ⟨fun below => absurd above (not_le.mpr below), fun _ => ⟨nonempty, noLeadingZero⟩⟩

theorem value_ofDigits_eq (digits : List Char) (point : ℤ) :
    (ofDigits digits point).value =
      DecimalLiteral.digitsValue digits * 10 ^ (point - digits.length) := by
  rw [← value_ofDigits, zpow_neg, zpow_natCast]
  rfl

end Value

section Placing

variable {digits : List Char} {point : ℤ}

/-- Placing the point only adds zeros in front of the digits and behind them. -/
theorem exists_append_ofDigits (digits : List Char) (point : ℤ) :
    ∃ front back, (ofDigits digits point).integer ++ (ofDigits digits point).fraction =
      List.replicate front '0' ++ (digits ++ List.replicate back '0') := by
  unfold ofDigits
  split
  · refine ⟨(-point).toNat + 1, 0, ?_⟩
    simp [List.replicate_succ]
  · simp only
    rcases Nat.le_total digits.length point.toNat with all | some
    · refine ⟨0, point.toNat - digits.length, ?_⟩
      simp [List.take_of_length_le all, List.drop_of_length_le all]
    · refine ⟨0, 0, ?_⟩
      simp [Nat.sub_eq_zero_of_le some]

/-- The digits are counted as significant when they do not start with a zero. -/
theorem length_le_significantCount_ofDigits (point : ℤ)
    (noLeadingZero : digits.head? ≠ some '0') :
    digits.length ≤ (ofDigits digits point).significantCount := by
  rcases exists_append_ofDigits digits point with ⟨front, back, whole⟩
  unfold significantCount
  rw [whole, List.dropWhile_append]
  cases digits with
  | nil => simp
  | cons digit rest =>
      have notZero : (digit == '0') = false := by simpa using noLeadingZero
      simp [notZero]

theorem hasPlainInteger_ofDigits (nonempty : digits ≠ []) (point : ℤ)
    (noLeadingZero : digits.head? ≠ some '0') : (ofDigits digits point).HasPlainInteger := by
  unfold ofDigits
  split
  · exact Or.inl rfl
  · next inside =>
      right
      obtain ⟨whole, isWhole⟩ : ∃ whole, point.toNat = whole + 1 := ⟨point.toNat - 1, by omega⟩
      cases digits with
      | nil => exact absurd rfl nonempty
      | cons digit rest => simpa [isWhole] using noLeadingZero

end Placing

section Rounding

variable {magnitude : Magnitude}

/--
A number up to a power of ten has its digits and, when it is that power, a last zero beyond them.
-/
theorem exists_carry {rounded : ℕ} (several : 1 ≤ count) (least : 10 ^ (count - 1) ≤ rounded)
    (most : rounded ≤ 10 ^ count) :
    ∃ carry, (Nat.toDigits 10 rounded).length = count + carry ∧
      DecimalLiteral.digitsValue ((Nat.toDigits 10 rounded).take count) * 10 ^ carry = rounded := by
  have positive : 0 < rounded := (Nat.pow_pos (by decide)).trans_le least
  have bounds := DecimalLiteral.pow_decimalLength positive
  unfold DecimalLiteral.decimalLength at bounds
  have whole := DecimalLiteral.digitsValue_toDigits rounded
  have all : ∀ digit ∈ Nat.toDigits 10 rounded, digit.isDigit = true := fun digit member =>
    Nat.isDigit_of_mem_toDigits (by decide) (by decide) member
  generalize Nat.toDigits 10 rounded = digits at bounds whole all ⊢
  have enough : count - 1 < digits.length :=
    (Nat.pow_lt_pow_iff_right (by decide)).mp (least.trans_lt bounds.2)
  have few : digits.length - 1 ≤ count :=
    (Nat.pow_le_pow_iff_right (by decide)).mp (bounds.1.trans most)
  rcases Nat.lt_or_ge count digits.length with carried | exact
  · have length : digits.length = count + 1 := by omega
    have power : rounded = 10 ^ count := by
      rw [length, Nat.add_sub_cancel] at bounds
      exact le_antisymm most bounds.1
    -- The last digit is less than ten, and ten divides it as it divides the power of ten.
    have split := DecimalLiteral.digitsValue_append (digits.take count) (digits.drop count)
    have final := DecimalLiteral.digitsValue_lt fun digit member =>
      all digit (List.mem_of_mem_drop (i := count) member)
    have single : (digits.drop count).length = 1 := by
      rw [List.length_drop]
      omega
    rw [List.take_append_drop, whole, single, pow_one, power] at split
    rw [single, pow_one] at final
    obtain ⟨fewer, rfl⟩ : ∃ fewer, count = fewer + 1 := ⟨count - 1, by omega⟩
    refine ⟨1, length, ?_⟩
    rw [power, pow_one]
    rw [pow_succ] at split ⊢
    omega
  · refine ⟨0, by omega, ?_⟩
    rw [List.take_of_length_le exact, whole, pow_zero, mul_one]

/-- The digits to which a magnitude is rounded, with the point among them. -/
theorem exists_roundSignificant (positive : 0 < magnitude.units) (several : 1 ≤ count) :
    ∃ (digits : List Char) (point : ℤ), roundSignificant magnitude count = ofDigits digits point ∧
      digits.length = count ∧ (∀ digit ∈ digits, digit.isDigit = true) ∧
      digits.head? ≠ some '0' ∧
      IsSignificantRounding count magnitude.value
        (DecimalLiteral.digitsValue digits * 10 ^ (point - count)) := by
  have isNearest := isNearest_roundQuotient
    (Magnitude.stepsOf magnitude.units (magnitude.decimalPoint - count)).1
    (Magnitude.denominator_stepsOf_pos magnitude.units (magnitude.decimalPoint - count))
  rw [Magnitude.stepsOf_eq] at isNearest
  have above := Magnitude.zpow_le_value positive
  have below := Magnitude.lt_zpow_decimalPoint positive
  simp only [roundSignificant]
  generalize roundQuotient
    (Magnitude.stepsOf magnitude.units (magnitude.decimalPoint - count)).1
    (Magnitude.stepsOf magnitude.units (magnitude.decimalPoint - count)).2 = rounded at isNearest ⊢
  generalize magnitude.decimalPoint = point at isNearest above below ⊢
  have unit : (0 : ℚ) < 10 ^ (point - count) := by positivity
  have least : 10 ^ (count - 1) ≤ rounded := by
    apply isNearest.ge
    have exponent : ((count - 1 : ℕ) : ℤ) + (point - count) = point - 1 := by omega
    rw [le_div_iff₀ unit, Nat.cast_pow, Nat.cast_ofNat, ← zpow_natCast, ← zpow_add₀ (by norm_num),
      exponent]
    exact above
  have most : rounded ≤ 10 ^ count := by
    apply isNearest.le
    rw [div_le_iff₀ unit, Nat.cast_pow, Nat.cast_ofNat, ← zpow_natCast, ← zpow_add₀ (by norm_num),
      add_sub_cancel]
    exact below.le
  have first := head?_toDigits ((Nat.pow_pos (by decide)).trans_le least)
  have all : ∀ digit ∈ Nat.toDigits 10 rounded, digit.isDigit = true := fun digit member =>
    Nat.isDigit_of_mem_toDigits (by decide) (by decide) member
  rcases exists_carry several least most with ⟨carry, length, value⟩
  generalize Nat.toDigits 10 rounded = digits at first all length value ⊢
  refine ⟨digits.take count, _, rfl, ?_, ?_, ?_, point - 1, rounded, above, ?_, ?_, ?_⟩
  · rw [List.length_take]
    omega
  · exact fun digit member => all digit (List.mem_of_mem_take member)
  · rw [List.head?_take, if_neg (by omega)]
    exact first
  · rwa [sub_add_cancel]
  · rwa [sub_add_cancel]
  · rw [sub_add_cancel, ← value, length, Nat.cast_mul, Nat.cast_pow, Nat.cast_ofNat, mul_assoc,
      ← zpow_natCast, ← zpow_add₀ (by norm_num)]
    congr 2
    push_cast
    ring

/-- Rounding lays the digits out without a zero too many in front, and with as many as asked for. -/
theorem roundSignificant_cases (positive : 0 < magnitude.units) (several : 1 ≤ count) :
    (∀ digit ∈ (roundSignificant magnitude count).integer ++
        (roundSignificant magnitude count).fraction, digit.isDigit = true) ∧
      (roundSignificant magnitude count).HasPlainInteger ∧
      IsSignificantRounding count magnitude.value (roundSignificant magnitude count).value := by
  rcases exists_roundSignificant positive several with
    ⟨digits, point, placed, length, all, noLeadingZero, rounding⟩
  have nonempty : digits ≠ [] := by
    rintro rfl
    rw [List.length_nil] at length
    omega
  rcases isDigit_ofDigits point all with ⟨integerAll, fractionAll⟩
  rw [placed, value_ofDigits_eq, length]
  refine ⟨?_, hasPlainInteger_ofDigits nonempty point noLeadingZero, rounding⟩
  intro digit member
  rcases List.mem_append.mp member with integer | fraction
  · exact integerAll digit integer
  · exact fractionAll digit fraction

end Rounding

end Numeral

end LocalizedText
