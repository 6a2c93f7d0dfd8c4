import LocalizedText.Proofs.Number.DecimalExponent
import LocalizedText.Proofs.Number.PowerOfTen
import LocalizedText.Proofs.Number.SignificantDigits

/-!
# Mantissas

The compact and the scientific form divide a number before they round it. A quotient can only lose
its digits where a double overflows or underflows, and that happens for the least doubles only. A
quotient of two or less has a single integer digit, so that it is not divided again.
-/

namespace LocalizedText

namespace Double

section HasDigit

variable {double : Double}

theorem number_finite (magnitude : Magnitude) : (finite false magnitude).number = magnitude.value := by
  simp [number]

theorem exists_magnitude (finite : double.isFinite = true) (positive : 0 < double.number) :
    ∃ magnitude : Magnitude, double = .finite false magnitude ∧ 0 < magnitude.units := by
  rcases exists_finite finite with ⟨negative, magnitude, rfl⟩
  cases negative with
  | false =>
      refine ⟨magnitude, rfl, ?_⟩
      by_contra zero
      have nothing : magnitude.units = 0 := by omega
      rw [number_finite, value_eq_zero nothing] at positive
      exact lt_irrefl 0 positive
  | true =>
      have nonneg := value_nonneg magnitude
      simp only [number, if_true] at positive
      linarith

theorem Rounds.exists_magnitude {exact : ℚ} (rounds : double.Rounds exact)
    (large : 1 / 10 ^ 20 ≤ exact) :
    ∃ magnitude : Magnitude, double = .finite false magnitude ∧ 0 < magnitude.units := by
  apply Double.exists_magnitude rounds.isFinite
  have error := rounds.error_le
  have positive : 0 < exact := lt_of_lt_of_le (by norm_num) large
  rw [abs_of_pos positive, abs_le] at error
  norm_num at error large
  linarith

theorem exists_ofNat {value : ℕ} (positive : 0 < value) (small : value ≤ 10 ^ 15) :
    ∃ magnitude : Magnitude, ofNat value = .finite false magnitude ∧ 0 < magnitude.units := by
  have near := ofNat_isNear positive small
  exact Double.exists_magnitude near.isFinite (near.pos (Nat.cast_pos.mpr positive))

theorem not_hasDigit_zero : ¬zero.HasDigit := by
  intro hasDigit
  exact hasDigit_finite_iff.mp hasDigit rfl

theorem roundToBits_zero (denominator : ℕ) : roundToBits 53 0 denominator = 0 := by
  simp [roundToBits, roundQuotient]

theorem not_hasDigit_dividedBy (noDigit : ¬double.HasDigit) (divisor : Double) :
    ¬(double.dividedBy divisor).HasDigit := by
  intro hasDigit
  cases double with
  | finite negative magnitude =>
      have zero := units_of_not_hasDigit noDigit
      cases divisor with
      | finite other right =>
          simp only [dividedBy, zero, Nat.zero_mul, if_true] at hasDigit
          split at hasDigit
          · cases hasDigit
          · cases nearest : Magnitude.nearestUnits? 0 right.units with
            | none =>
                rw [nearest] at hasDigit
                cases hasDigit
            | some quotient =>
                rw [nearest] at hasDigit
                apply hasDigit_finite_iff.mp hasDigit
                rw [Magnitude.units_ofUnits? nearest, roundToBits_zero]
      | infinite other => exact hasDigit_finite_iff.mp hasDigit rfl
      | notANumber => cases hasDigit
  | infinite negative => cases divisor <;> cases hasDigit
  | notANumber => cases divisor <;> cases hasDigit

/-- A quotient that is a magnitude needs no rounding. -/
theorem nearestUnits?_mul (magnitude : Magnitude) {denominator : ℕ} (positive : 0 < denominator) :
    Magnitude.nearestUnits? (magnitude.units * denominator) denominator = some magnitude := by
  have multiple := Nat.div_mul_cancel (Nat.dvd_of_mod_eq_zero magnitude.representable.2)
  have spacing : magnitude.units.log2 + 1 - 53 = magnitude.units.log2 - 52 := by omega
  have exact : roundToBits 53 (magnitude.units * denominator) denominator = magnitude.units := by
    rw [roundToBits, Nat.mul_div_cancel _ positive, spacing]
    have stepPos := Nat.two_pow_pos (magnitude.units.log2 - 52)
    generalize 2 ^ (magnitude.units.log2 - 52) = step at multiple stepPos ⊢
    have whole : magnitude.units * denominator =
        magnitude.units / step * (denominator * step) := by
      nth_rewrite 1 [← multiple]
      ring
    rw [whole, roundQuotient_mul_left _ (Nat.mul_pos positive stepPos), multiple]
  rw [Magnitude.nearestUnits?, exact, Magnitude.ofUnits?_units]

theorem dividedBy_one (magnitude : Magnitude) :
    (finite false magnitude).dividedBy (ofNat 1) = finite false magnitude := by
  have one : ofNat 1 = finite false ⟨unitsPerOne, by decide +kernel⟩ := by
    decide +kernel
  rw [one]
  simp only [dividedBy, nearestUnits?_mul magnitude Magnitude.unitsPerOne_pos]
  rw [if_neg Magnitude.unitsPerOne_pos.ne']
  rfl

end HasDigit

section Quotients

variable {magnitude : Magnitude} {divisor : Double} {exact : ℚ} {roundings : ℕ}

theorem value_le_limit (magnitude : Magnitude) : magnitude.value ≤ 2 * limit := by
  have one := cast_unitsPerOne_pos
  have below : (magnitude.units : ℚ) ≤ overflowUnits := Nat.cast_le.mpr magnitude.representable.1.le
  rw [Magnitude.value, limit, div_le_iff₀ one]
  generalize (unitsPerOne : ℚ) = unit at one ⊢
  generalize (overflowUnits : ℚ) = overflow at below ⊢
  have units : (0 : ℚ) ≤ magnitude.units := Nat.cast_nonneg _
  field_simp
  linarith

theorem units_le_of_value_le (small : magnitude.value ≤ 2) :
    magnitude.units ≤ 2 * unitsPerOne := by
  rw [Magnitude.value, div_le_iff₀ cast_unitsPerOne_pos] at small
  exact_mod_cast small

theorem atLeast_iff {bound : ℕ} :
    (finite false magnitude).atLeast bound = true ↔ (bound : ℚ) ≤ magnitude.value := by
  rw [Magnitude.value, le_div_iff₀ cast_unitsPerOne_pos]
  simp only [atLeast, Bool.not_false, Bool.true_or, Bool.and_true, decide_eq_true_eq]
  norm_cast

theorem atLeast_of_value_le (small : magnitude.value ≤ 2) {bound : ℕ} (greater : 2 < bound) :
    (finite false magnitude).atLeast bound = false := by
  have more : (2 : ℚ) < bound := by exact_mod_cast greater
  rw [← Bool.not_eq_true, atLeast_iff, not_le]
  exact small.trans_lt more

/-- Dividing by a double that is near a number gives about the quotient by that number. -/
theorem exists_rounds_dividedBy (near : divisor.IsNear exact roundings) (few : roundings ≤ 1000)
    (positive : 0 < exact) (small : magnitude.value ≤ 1 / 2 * limit * exact) :
    ∃ quotient, ((finite false magnitude).dividedBy divisor).Rounds quotient ∧
      magnitude.value / exact ≤ 101 / 100 * quotient ∧
      quotient ≤ 101 / 100 * (magnitude.value / exact) := by
  have divisorPos := near.pos positive
  have power := slack_pow_le few
  have nonneg := value_nonneg magnitude
  have above : exact ≤ 101 / 100 * divisor.number := by
    have scaled := mul_le_mul_of_nonneg_left power divisorPos.le
    linarith [near.ge]
  have below : divisor.number ≤ 101 / 100 * exact := by
    have scaled := mul_le_mul_of_nonneg_left power positive.le
    linarith [near.le]
  have most : magnitude.value / divisor.number ≤ 101 / 100 * (magnitude.value / exact) := by
    rw [← mul_div_assoc, div_le_div_iff₀ divisorPos positive]
    nlinarith
  have least : magnitude.value / exact ≤ 101 / 100 * (magnitude.value / divisor.number) := by
    rw [← mul_div_assoc, div_le_div_iff₀ positive divisorPos]
    nlinarith
  have quotient : magnitude.value / exact ≤ 1 / 2 * limit := (div_le_iff₀ positive).mpr small
  have bounded : |(finite false magnitude).number / divisor.number| ≤ limit := by
    have size : |(finite false magnitude).number / divisor.number| =
        magnitude.value / divisor.number := by
      rw [number_finite, abs_of_nonneg (div_nonneg nonneg divisorPos.le)]
    have limitPos : (0 : ℚ) ≤ limit := by
      have reached : (3 / 2 * 10 ^ 0 : ℚ) ≤ limit := le_limit (by decide)
      linarith
    rw [size]
    linarith
  exact ⟨_, rounds_dividedBy rfl near.isFinite divisorPos.ne' bounded, least, most⟩

/-- Powers of a thousand leave a digit of a number that is at least one. -/
theorem exists_quotient (large : 1 ≤ magnitude.value) {power : ℕ} (least : 1000 ≤ power)
    (greatest : power ≤ 10 ^ 12) :
    ∃ quotient : Magnitude, (finite false magnitude).dividedBy (ofNat power) =
      .finite false quotient ∧ 0 < quotient.units := by
  have leastCast : (1000 : ℚ) ≤ power := by exact_mod_cast least
  have greatestCast : (power : ℚ) ≤ 10 ^ 12 := by exact_mod_cast greatest
  have powerPos : (0 : ℚ) < power := by linarith
  have near := ofNat_isNear (show 0 < power by omega) (greatest.trans (by norm_num))
  have small : magnitude.value ≤ 1 / 2 * limit * power := by
    have reached : (3 / 2 * 10 ^ 0 : ℚ) ≤ limit := le_limit (by decide)
    have below := value_le_limit magnitude
    generalize limit = limit at reached below ⊢
    nlinarith
  rcases exists_rounds_dividedBy near (by decide) powerPos small with ⟨exact, rounds, above, -⟩
  have part : 1 / 10 ^ 12 ≤ magnitude.value / power := by
    rw [div_le_div_iff₀ (by norm_num) powerPos]
    linarith
  apply rounds.exists_magnitude
  norm_num at part ⊢
  linarith

variable {power : ℤ}

/-- The double next to a power of ten by its decimal exponent has the digits of a mantissa. -/
theorem exists_rounds_mantissa (positive : 0 < magnitude.units) (least : -308 ≤ power)
    (greatest : power ≤ 308) (above : (finite false magnitude).decimalExponent ≤ power)
    (below : power ≤ (finite false magnitude).decimalExponent + 1) :
    ∃ quotient, ((finite false magnitude).dividedBy (powerOfTen power)).Rounds quotient ∧
      1 / 10 ^ 20 ≤ quotient ∧ quotient ≤ 101 / 100 * (magnitude.value / 10 ^ power) := by
  have bounds := decimalExponent_bounds positive false
  generalize (finite false magnitude).decimalExponent = exponent at above below bounds
  rcases bounds with ⟨-, -, least', most⟩
  have powerPos : (0 : ℚ) < 10 ^ power := by positivity
  have larger : (10 : ℚ) ^ exponent ≤ 10 ^ power := zpow_le_zpow_right₀ (by norm_num) above
  have smaller : (10 : ℚ) ^ power ≤ 10 * 10 ^ exponent := by
    calc (10 : ℚ) ^ power ≤ 10 ^ (1 + exponent) := zpow_le_zpow_right₀ (by norm_num) (by omega)
      _ = 10 * 10 ^ exponent := by rw [zpow_add₀ (by norm_num), zpow_one]
  have small : magnitude.value ≤ 1 / 2 * limit * 10 ^ power := by
    have reached : (3 / 2 * 10 ^ 3 : ℚ) ≤ limit := le_limit (by decide)
    nlinarith
  rcases exists_rounds_dividedBy (powerOfTen_isNear least greatest) (by decide) powerPos small with
    ⟨quotient, rounds, quotientLeast, quotientMost⟩
  refine ⟨quotient, rounds, ?_, quotientMost⟩
  have eighth : 1 / 80 ≤ magnitude.value / 10 ^ power := by
    rw [div_le_div_iff₀ (by norm_num) powerPos]
    linarith
  norm_num at eighth ⊢
  linarith

theorem exists_mantissa (positive : 0 < magnitude.units) (least : -308 ≤ power)
    (greatest : power ≤ 308) (above : (finite false magnitude).decimalExponent ≤ power)
    (below : power ≤ (finite false magnitude).decimalExponent + 1) :
    ∃ mantissa : Magnitude, (finite false magnitude).dividedBy (powerOfTen power) =
      .finite false mantissa ∧ 0 < mantissa.units := by
  rcases exists_rounds_mantissa positive least greatest above below with ⟨quotient, rounds, large, -⟩
  exact rounds.exists_magnitude large

theorem value_le_greatest (magnitude : Magnitude) {exponent : ℕ} (isGreatest : exponent = 308) :
    magnitude.value ≤ 9 / 5 * 10 ^ exponent := by
  have one := cast_unitsPerOne_pos
  have below : (magnitude.units : ℚ) ≤ overflowUnits := Nat.cast_le.mpr magnitude.representable.1.le
  have exact : ∀ exponent, exponent = 308 → 5 * overflowUnits ≤ 9 * 10 ^ exponent * unitsPerOne := by
    rintro _ rfl
    decide +kernel
  have cast := Nat.cast_le (α := ℚ).mpr (exact exponent isGreatest)
  rw [Nat.cast_mul, Nat.cast_mul, Nat.cast_mul, Nat.cast_pow, Nat.cast_ofNat, Nat.cast_ofNat,
    Nat.cast_ofNat] at cast
  rw [Magnitude.value, div_le_iff₀ one]
  generalize (unitsPerOne : ℚ) = unit at cast ⊢
  generalize (overflowUnits : ℚ) = overflow at cast below
  linarith

/-- The mantissa of the greatest doubles is two at most. -/
theorem number_mantissa_le (positive : 0 < magnitude.units) {exponent : ℕ}
    (isGreatest : exponent = 308) (own : (finite false magnitude).decimalExponent = exponent) :
    ((finite false magnitude).dividedBy (powerOfTen exponent)).number ≤ 2 := by
  rcases exists_rounds_mantissa positive (show -308 ≤ (exponent : ℤ) by omega) (by omega) own.le
    (by omega) with ⟨quotient, rounds, large, most⟩
  have error := rounds.error_le
  have quotientPos : 0 < quotient := lt_of_lt_of_le (by norm_num) large
  have size : magnitude.value / 10 ^ (exponent : ℤ) ≤ 9 / 5 := by
    rw [zpow_natCast, div_le_iff₀ (by positivity)]
    exact value_le_greatest magnitude isGreatest
  rw [abs_of_pos quotientPos, abs_le] at error
  norm_num at error
  linarith

end Quotients

end Double

namespace Numeral

variable {magnitude : Magnitude} {numeral : Numeral} {count minimum maximum bound : ℕ}

theorem length_integer_ofDigits (digits : List Char) (point : ℤ) :
    (ofDigits digits point).integer.length ≤ max 1 point.toNat := by
  unfold ofDigits
  split
  · simp
  · simp only [List.length_append, List.length_take, List.length_replicate]
    omega

/-- A number up to two is rounded to one integer digit. -/
theorem length_integer_roundSignificant (positive : 0 < magnitude.units)
    (small : magnitude.value ≤ 2) (several : 0 < count) :
    (roundSignificant magnitude count).integer.length ≤ 1 := by
  have one := cast_unitsPerOne_pos
  have point : magnitude.decimalPoint ≤ 1 := by
    have least := Magnitude.zpow_decimalPoint_le positive
    rw [← le_div_iff₀ one] at least
    by_contra above
    have ten : (10 : ℚ) ^ (1 : ℤ) ≤ 10 ^ (magnitude.decimalPoint - 1) :=
      zpow_le_zpow_right₀ (by norm_num) (by omega)
    rw [zpow_one] at ten
    linarith [show magnitude.value = magnitude.units / unitsPerOne from rfl]
  have units := Double.units_le_of_value_le small
  simp only [roundSignificant, Magnitude.stepsOf]
  generalize isPlaces : (-(magnitude.decimalPoint - (count : ℤ))).toNat = places
  have whole : (magnitude.decimalPoint - (count : ℤ)).toNat = 0 := by omega
  rw [whole, pow_zero, mul_one]
  have rounded : roundQuotient (magnitude.units * 10 ^ places) unitsPerOne ≤ 2 * 10 ^ places := by
    apply roundQuotient_le Magnitude.unitsPerOne_pos
    calc magnitude.units * 10 ^ places ≤ 2 * unitsPerOne * 10 ^ places :=
          Nat.mul_le_mul_right _ units
      _ = 2 * 10 ^ places * unitsPerOne := by ring
  have few : (Nat.toDigits 10 (roundQuotient (magnitude.units * 10 ^ places)
      unitsPerOne)).length ≤ places + 1 := by
    rw [Nat.length_toDigits_le_iff (by decide) (by omega), pow_succ]
    have power : 0 < 10 ^ places := Nat.pow_pos (by decide)
    omega
  clear units rounded
  apply (length_integer_ofDigits _ _).trans
  omega

/-- One integer digit is below ten, also with zeros in front of it. -/
theorem atLeast_padInteger (single : numeral.integer.length ≤ 1) (filled : ℕ) (several : 10 ≤ bound) :
    (numeral.padInteger filled).atLeast bound = false := by
  rcases numeral with ⟨integer, fraction⟩
  change integer.length ≤ 1 at single
  unfold atLeast
  split
  · next allDigits =>
      have isDigit : ∀ digit ∈ integer, digit.isDigit = true := by
        intro digit member
        exact List.all_eq_true.mp allDigits digit (List.mem_append_right _ member)
      have below := DecimalLiteral.digitsValue_lt isDigit
      have power : 10 ^ integer.length ≤ 10 ^ 1 := Nat.pow_le_pow_right (by decide) single
      simp only [padInteger, DecimalLiteral.digitsValue_zeros_append, decide_eq_false_iff_not]
      omega
  · simp only [padInteger, beq_eq_false_iff_ne]
    intro isName
    cases zeros : filled - integer.length with
    | zero =>
        rw [zeros] at isName
        have length := congrArg List.length isName
        simp at length
        omega
    | succ more =>
        rw [zeros, List.replicate_succ] at isName
        simp at isName

theorem integer_adjustSignificant (numeral : Numeral) (minimum : ℕ) :
    (numeral.adjustSignificant minimum).integer = numeral.integer := rfl

theorem atLeast_significant? {double : Double} (nonneg : double.isNegative = false)
    (small : double.number ≤ 2) (found : significant? double minimum maximum = some numeral)
    (filled : ℕ) (several : 10 ≤ bound) : (numeral.padInteger filled).atLeast bound = false := by
  apply atLeast_padInteger _ filled several
  by_cases hasDigit : double.HasDigit
  · rw [significant?_of_hasDigit hasDigit, Option.some.injEq] at found
    subst found
    cases double with
    | finite negative magnitude =>
        have positive := Double.hasDigit_finite_iff.mp hasDigit
        have nonneg : negative = false := nonneg
        subst nonneg
        rw [Double.number_finite] at small
        rw [integer_adjustSignificant]
        simp only [unadjusted, if_neg positive]
        exact length_integer_roundSignificant (Nat.pos_of_ne_zero positive) small (by omega)
    | infinite negative => cases hasDigit
    | notANumber => cases hasDigit
  · rw [significant?_of_not_hasDigit hasDigit] at found
    split at found
    · cases found
      exact le_rfl
    · cases found

end Numeral

end LocalizedText
