import LocalizedText.Proofs.Number.FixedPoint
import Mathlib.Data.Nat.Cast.Order.Field

/-!
# The error of rounded arithmetic

Arithmetic on doubles rounds an exact result to the nearest double. Of a result that is neither very
large nor very small the double exists, and it is off by a small part of the result. Whoever only
needs to know roughly how large a computed double is can reckon with the exact numbers instead.
-/

namespace LocalizedText

/-- A mantissa of 53 binary digits is divisible as the numbers of units of doubles are. -/
theorem mul_two_pow_mod {mantissa : ℕ} (small : mantissa ≤ 2 ^ 53) (shift : ℕ) :
    mantissa * 2 ^ shift % 2 ^ ((mantissa * 2 ^ shift).log2 - 52) = 0 := by
  apply Nat.mod_eq_zero_of_dvd
  rcases Nat.lt_or_eq_of_le small with less | rfl
  · by_cases zero : mantissa = 0
    · simp [zero]
    · have log : (mantissa * 2 ^ shift).log2 < 53 + shift := by
        rw [Nat.log2_lt (by positivity), pow_add]
        exact Nat.mul_lt_mul_of_pos_right less (by positivity)
      have divides : 2 ^ ((mantissa * 2 ^ shift).log2 - 52) ∣ 2 ^ shift :=
        pow_dvd_pow 2 (by omega)
      exact divides.mul_left mantissa
  · rw [← pow_add, Nat.log2_two_pow]
    exact pow_dvd_pow 2 (by omega)

section RoundToBits

variable (numerator : ℕ) {denominator : ℕ}

/-- The weight of the last binary digit of a mantissa, which is one or small enough. -/
theorem spacing_le (numerator denominator : ℕ) :
    (2 ^ ((numerator / denominator).log2 + 1 - 53) : ℚ) ≤
      1 + numerator / denominator / 2 ^ 52 := by
  have quotient : ((numerator / denominator : ℕ) : ℚ) ≤ numerator / denominator :=
    Nat.cast_div_le
  have whole : (0 : ℚ) ≤ (numerator / denominator : ℕ) := Nat.cast_nonneg _
  by_cases wide : 52 < (numerator / denominator).log2
  · have power : 2 ^ 52 * 2 ^ ((numerator / denominator).log2 + 1 - 53) ≤
        numerator / denominator := by
      rw [← pow_add]
      have exponent : 52 + ((numerator / denominator).log2 + 1 - 53) =
          (numerator / denominator).log2 := by omega
      rw [exponent]
      apply Nat.log2_self_le
      intro zero
      simp [zero] at wide
    have cast : (2 ^ 52 * 2 ^ ((numerator / denominator).log2 + 1 - 53) : ℚ) ≤
        (numerator / denominator : ℕ) := by exact_mod_cast power
    rw [← sub_le_iff_le_add', le_div_iff₀ (by positivity)]
    linarith
  · have narrow : (numerator / denominator).log2 + 1 - 53 = 0 := by omega
    rw [narrow, pow_zero]
    have nonneg : (0 : ℚ) ≤ numerator / denominator / 2 ^ 52 := by positivity
    linarith

/-- Rounding to a mantissa of 53 binary digits is off by at most half of the last one. -/
theorem abs_sub_roundToBits_le (positive : 0 < denominator) :
    |(numerator / denominator : ℚ) - roundToBits 53 numerator denominator| ≤
      numerator / denominator / 2 ^ 53 + 1 / 2 := by
  unfold roundToBits
  have spacing := spacing_le numerator denominator
  generalize (numerator / denominator).log2 + 1 - 53 = shift at spacing ⊢
  have power : (0 : ℚ) < 2 ^ shift := by positivity
  have error := abs_sub_roundQuotient_le numerator
    (Nat.mul_pos positive (Nat.two_pow_pos shift))
  push_cast at error ⊢
  generalize (roundQuotient numerator (denominator * 2 ^ shift) : ℚ) = rounded at error ⊢
  have scaled : (numerator / denominator : ℚ) - rounded * 2 ^ shift =
      (numerator / (denominator * 2 ^ shift) - rounded) * 2 ^ shift := by
    rw [sub_mul, ← div_div, div_mul_cancel₀ _ power.ne']
  rw [scaled, abs_mul, abs_of_pos power]
  calc |numerator / (denominator * 2 ^ shift) - rounded| * 2 ^ shift
      ≤ 1 / 2 * 2 ^ shift := mul_le_mul_of_nonneg_right error power.le
    _ ≤ numerator / denominator / 2 ^ 53 + 1 / 2 := by
        norm_num at spacing ⊢
        linarith

theorem exists_roundToBits (positive : 0 < denominator) :
    ∃ mantissa shift, roundToBits 53 numerator denominator = mantissa * 2 ^ shift ∧
      mantissa ≤ 2 ^ 53 := by
  refine ⟨_, _, rfl, ?_⟩
  have whole : numerator / denominator < 2 ^ 53 *
      2 ^ ((numerator / denominator).log2 + 1 - 53) := by
    rw [← pow_add]
    apply Nat.lt_log2_self.trans_le
    exact Nat.pow_le_pow_right (by decide) (by omega)
  generalize (numerator / denominator).log2 + 1 - 53 = shift at whole ⊢
  have bounded : numerator < 2 ^ 53 * (denominator * 2 ^ shift) := by
    rw [Nat.div_lt_iff_lt_mul positive] at whole
    linarith
  have spacingPos := Nat.mul_pos positive (Nat.two_pow_pos shift)
  have error := (roundQuotient_error numerator spacingPos).1
  generalize denominator * 2 ^ shift = spacing at bounded error spacingPos ⊢
  by_contra above
  have least : (2 ^ 53 + 1) * spacing ≤ roundQuotient numerator spacing * spacing :=
    Nat.mul_le_mul_right spacing (by omega)
  omega

end RoundToBits

theorem cast_unitsPerOne_pos : (0 : ℚ) < unitsPerOne :=
  Nat.cast_pos.mpr Magnitude.unitsPerOne_pos

theorem le_overflowUnits : 16 ≤ overflowUnits := by
  decide +kernel

/-- A number of units that is well below the overflow limit has a nearest magnitude. -/
theorem exists_nearestUnits? {numerator denominator : ℕ} (positive : 0 < denominator)
    (small : 16 * numerator ≤ denominator * (15 * overflowUnits)) :
    ∃ magnitude, Magnitude.nearestUnits? numerator denominator = some magnitude ∧
      |(numerator / denominator : ℚ) - magnitude.units| ≤
        numerator / denominator / 2 ^ 53 + 1 / 2 := by
  have error := abs_sub_roundToBits_le numerator positive
  rcases exists_roundToBits numerator positive with ⟨mantissa, shift, isRounded, bits⟩
  have below : roundToBits 53 numerator denominator < overflowUnits := by
    have positiveCast : (0 : ℚ) < denominator := by exact_mod_cast positive
    have less : (numerator / denominator : ℚ) ≤ 15 * overflowUnits / 16 := by
      rw [div_le_div_iff₀ positiveCast (by norm_num)]
      exact_mod_cast (by linarith : numerator * 16 ≤ 15 * overflowUnits * denominator)
    have above := (abs_le.mp error).1
    have least : (16 : ℚ) ≤ overflowUnits := by exact_mod_cast le_overflowUnits
    have cast : (roundToBits 53 numerator denominator : ℚ) < overflowUnits := by
      generalize (overflowUnits : ℚ) = limit at less least ⊢
      linarith
    exact_mod_cast cast
  have representable : IsRepresentable (roundToBits 53 numerator denominator) := by
    refine ⟨below, ?_⟩
    rw [isRounded]
    exact mul_two_pow_mod bits shift
  refine ⟨⟨_, representable⟩, ?_, error⟩
  rw [Magnitude.nearestUnits?, Magnitude.ofUnits?, dif_pos representable]

namespace Double

/-- The rational number that a finite double is. -/
def number : Double → ℚ
  | .finite negative magnitude => if negative then -magnitude.value else magnitude.value
  | _ => 0

/-- Every number up to this one has a nearest double. -/
def limit : ℚ :=
  15 * overflowUnits / (16 * unitsPerOne)

/-- A finite double that is off from a number by no more than a rounding is. -/
structure Rounds (double : Double) (exact : ℚ) : Prop where
  isFinite : double.isFinite = true
  error : |exact - double.number| ≤ |exact| / 2 ^ 53 + 1 / (2 * unitsPerOne)

section Units

variable {unit overflow exact rounded numerator denominator : ℚ}

theorem le_mul_of_div_le_limit (unitPos : 0 < unit) (positive : 0 < denominator)
    (small : numerator / denominator / unit ≤ 15 * overflow / (16 * unit)) :
    16 * numerator ≤ denominator * (15 * overflow) := by
  rw [div_div, div_le_div_iff₀ (by positivity) (by positivity)] at small
  apply le_of_mul_le_mul_right _ unitPos
  linarith

theorem abs_div_sub_div_le (unitPos : 0 < unit) (nonneg : 0 ≤ exact)
    (error : |exact - rounded| ≤ exact / 2 ^ 53 + 1 / 2) :
    |exact / unit - rounded / unit| ≤ |exact / unit| / 2 ^ 53 + 1 / (2 * unit) := by
  have quotient : 0 ≤ exact / unit := div_nonneg nonneg unitPos.le
  rw [← sub_div, abs_div, abs_of_pos unitPos, abs_of_nonneg quotient, div_le_iff₀ unitPos]
  calc |exact - rounded| ≤ exact / 2 ^ 53 + 1 / 2 := error
    _ = (exact / unit / 2 ^ 53 + 1 / (2 * unit)) * unit := by field_simp

end Units

theorem rounds_ofMagnitude? {numerator denominator : ℕ} (positive : 0 < denominator)
    (small : (numerator / denominator / unitsPerOne : ℚ) ≤ limit) (negative : Bool) :
    (ofMagnitude? negative (Magnitude.nearestUnits? numerator denominator)).Rounds
      (if negative then -(numerator / denominator / unitsPerOne)
        else numerator / denominator / unitsPerOne) := by
  have one := cast_unitsPerOne_pos
  have positiveCast : (0 : ℚ) < denominator := by exact_mod_cast positive
  have bounded : 16 * numerator ≤ denominator * (15 * overflowUnits) := by
    apply Nat.cast_le (α := ℚ).mp
    rw [Nat.cast_mul, Nat.cast_mul, Nat.cast_mul, Nat.cast_ofNat, Nat.cast_ofNat]
    exact le_mul_of_div_le_limit one positiveCast small
  rcases exists_nearestUnits? positive bounded with ⟨magnitude, found, error⟩
  have scaled := abs_div_sub_div_le one (div_nonneg numerator.cast_nonneg positiveCast.le) error
  rw [found]
  refine ⟨rfl, ?_⟩
  cases negative with
  | false => exact scaled
  | true =>
      simp only [ofMagnitude?, number, if_true, abs_neg]
      rw [neg_sub_neg, abs_sub_comm]
      exact scaled

theorem value_nonneg (magnitude : Magnitude) : 0 ≤ magnitude.value :=
  div_nonneg (Nat.cast_nonneg _) (Nat.cast_nonneg _)

theorem value_eq_zero {magnitude : Magnitude} (zero : magnitude.units = 0) :
    magnitude.value = 0 := by
  rw [Magnitude.value, zero, Nat.cast_zero, zero_div]

theorem signedUnits_div (negative : Bool) (magnitude : Magnitude) :
    (signedUnits negative magnitude : ℚ) / unitsPerOne = (finite negative magnitude).number := by
  cases negative with
  | false => simp only [signedUnits, number, Magnitude.value, Bool.false_eq_true, if_false,
      Int.cast_natCast]
  | true => simp only [signedUnits, number, Magnitude.value, if_true, Int.cast_neg,
      Int.cast_natCast, neg_div]

theorem exists_finite {double : Double} (finite : double.isFinite = true) :
    ∃ negative magnitude, double = .finite negative magnitude := by
  cases double with
  | finite negative magnitude => exact ⟨negative, magnitude, rfl⟩
  | infinite negative => cases finite
  | notANumber => cases finite

section Operations

variable {left right : Double}

theorem rounds_times (leftFinite : left.isFinite = true) (rightFinite : right.isFinite = true)
    (small : |left.number * right.number| ≤ limit) :
    (left.times right).Rounds (left.number * right.number) := by
  rcases exists_finite leftFinite with ⟨leftNegative, left, rfl⟩
  rcases exists_finite rightFinite with ⟨rightNegative, right, rfl⟩
  have size : ((left.units * right.units : ℕ) / unitsPerOne / unitsPerOne : ℚ) =
      left.value * right.value := by
    rw [Nat.cast_mul, Magnitude.value, Magnitude.value, div_div, div_mul_div_comm]
  have nonneg := mul_nonneg (value_nonneg left) (value_nonneg right)
  have bounded : left.value * right.value ≤ limit := by
    apply le_trans (le_of_eq _) small
    cases leftNegative <;> cases rightNegative <;> simp [number, abs_of_nonneg nonneg]
  rw [← size] at bounded
  have rounds := rounds_ofMagnitude? Magnitude.unitsPerOne_pos bounded
    (leftNegative != rightNegative)
  rw [size] at rounds
  cases leftNegative <;> cases rightNegative <;> simpa [number, times] using rounds

theorem rounds_dividedBy (leftFinite : left.isFinite = true) (rightFinite : right.isFinite = true)
    (nonzero : right.number ≠ 0) (small : |left.number / right.number| ≤ limit) :
    (left.dividedBy right).Rounds (left.number / right.number) := by
  rcases exists_finite leftFinite with ⟨leftNegative, left, rfl⟩
  rcases exists_finite rightFinite with ⟨rightNegative, right, rfl⟩
  have one := cast_unitsPerOne_pos.ne'
  have positive : 0 < right.units := by
    by_contra zero
    have none : right.units = 0 := by omega
    apply nonzero
    cases rightNegative <;> simp [number, value_eq_zero none]
  have size : ((left.units * unitsPerOne : ℕ) / right.units / unitsPerOne : ℚ) =
      left.value / right.value := by
    rw [Nat.cast_mul, Magnitude.value, Magnitude.value, div_div_div_cancel_right₀ one,
      mul_div_right_comm, mul_div_assoc, div_self one, mul_one]
  have nonneg := div_nonneg (value_nonneg left) (value_nonneg right)
  have bounded : left.value / right.value ≤ limit := by
    apply le_trans (le_of_eq _) small
    cases leftNegative <;> cases rightNegative <;>
      simp [number, abs_of_nonneg nonneg, neg_div, div_neg]
  rw [← size] at bounded
  have rounds := rounds_ofMagnitude? positive bounded (leftNegative != rightNegative)
  rw [size] at rounds
  cases leftNegative <;> cases rightNegative <;>
    simpa [number, dividedBy, positive.ne', neg_div, div_neg] using rounds

theorem rounds_plus (leftFinite : left.isFinite = true) (rightFinite : right.isFinite = true)
    (small : |left.number + right.number| ≤ limit) :
    (left.plus right).Rounds (left.number + right.number) := by
  rcases exists_finite leftFinite with ⟨leftNegative, left, rfl⟩
  rcases exists_finite rightFinite with ⟨rightNegative, right, rfl⟩
  have size : ((signedUnits leftNegative left + signedUnits rightNegative right : ℤ) /
      unitsPerOne : ℚ) = (finite leftNegative left).number + (finite rightNegative right).number := by
    rw [Int.cast_add, add_div, signedUnits_div, signedUnits_div]
  rw [← size] at small ⊢
  simp only [plus]
  generalize signedUnits leftNegative left + signedUnits rightNegative right = units at small ⊢
  have one := cast_unitsPerOne_pos
  split
  · next zero =>
      refine ⟨rfl, ?_⟩
      have nothing : (finite (leftNegative && rightNegative) Magnitude.zero).number = 0 := by
        have none : Magnitude.zero.value = 0 := value_eq_zero rfl
        cases leftNegative <;> cases rightNegative <;> simp [number, none]
      rw [zero, nothing, Int.cast_zero, zero_div, sub_zero, abs_zero, zero_div, zero_add]
      exact (one_div_pos.mpr (mul_pos two_pos one)).le
  · have magnitude : ((units.natAbs : ℕ) : ℚ) / (1 : ℕ) / unitsPerOne = |(units / unitsPerOne : ℚ)| := by
      rw [abs_div, abs_of_pos one, Nat.cast_one, div_one, Nat.cast_natAbs, Int.cast_abs]
    rw [← magnitude] at small
    have rounds := rounds_ofMagnitude? Nat.one_pos small (decide (units < 0))
    rw [magnitude] at rounds
    by_cases negative : units < 0
    · have below : (units / unitsPerOne : ℚ) < 0 :=
        div_neg_of_neg_of_pos (Int.cast_lt_zero.mpr negative) one
      rw [decide_eq_true negative, if_pos rfl, abs_of_neg below, neg_neg] at rounds
      rw [decide_eq_true negative]
      exact rounds
    · have above : (0 : ℚ) ≤ units / unitsPerOne :=
        div_nonneg (Int.cast_nonneg (not_lt.mp negative)) one.le
      rw [decide_eq_false negative, if_neg Bool.false_ne_true, abs_of_nonneg above] at rounds
      rw [decide_eq_false negative]
      exact rounds

theorem rounds_ofQuotient {numerator denominator : ℕ} (positive : 0 < denominator)
    (small : (numerator / denominator : ℚ) ≤ limit) (negative : Bool) :
    (ofQuotient negative numerator denominator).Rounds
      (if negative then -(numerator / denominator) else numerator / denominator) := by
  have one := cast_unitsPerOne_pos.ne'
  have size : ((numerator * unitsPerOne : ℕ) / denominator / unitsPerOne : ℚ) =
      numerator / denominator := by
    rw [Nat.cast_mul, mul_div_right_comm, mul_div_assoc, div_self one, mul_one]
  rw [← size] at small
  have rounds := rounds_ofMagnitude? positive small negative
  rwa [size] at rounds

end Operations

/-- The powers of ten that have a double are below the limit, also when they are a little off. -/
theorem le_limit {exponent : ℕ} (small : exponent ≤ 308) : (3 / 2 * 10 ^ exponent : ℚ) ≤ limit := by
  have exact : ∀ exponent ≤ 308,
      3 * 10 ^ exponent * (16 * unitsPerOne) ≤ 15 * overflowUnits * 2 := by
    decide +kernel
  have cast := Nat.cast_le (α := ℚ).mpr (exact exponent small)
  rw [Nat.cast_mul, Nat.cast_mul, Nat.cast_mul, Nat.cast_mul, Nat.cast_mul, Nat.cast_pow] at cast
  have one : (0 : ℚ) < 16 * unitsPerOne :=
    mul_pos (by norm_num) cast_unitsPerOne_pos
  rw [limit, div_mul_eq_mul_div, div_le_div_iff₀ two_pos one]
  exact cast

theorem half_unit_le : (1 : ℚ) / (2 * unitsPerOne) ≤ 1 / 10 ^ 200 := by
  have exact : 10 ^ 200 ≤ 2 * unitsPerOne := by decide +kernel
  have cast := Nat.cast_le (α := ℚ).mpr exact
  rw [Nat.cast_mul, Nat.cast_pow, Nat.cast_ofNat, Nat.cast_ofNat] at cast
  exact one_div_le_one_div_of_le (pow_pos (by norm_num) 200) cast

/-- A rounding is off by a small part of the number and by next to nothing beyond that. -/
theorem Rounds.error_le {double : Double} {exact : ℚ} (rounds : double.Rounds exact) :
    |exact - double.number| ≤ |exact| / 2 ^ 53 + 1 / 10 ^ 200 :=
  rounds.error.trans (add_le_add_right half_unit_le _)

end Double

end LocalizedText
