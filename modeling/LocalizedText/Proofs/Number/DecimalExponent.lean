import LocalizedText.Number.Exponent
import LocalizedText.Proofs.Number.RoundingError
import Mathlib.Algebra.Order.Field.Power

/-!
# The size of a decimal exponent

The decimal exponent of a double comes from a rounded logarithm, and may be off by one from that of
its first digit. The power of ten is still of the size of the double: the series of the logarithm
adds less than one half to the part that the power of two contributes, and all roundings together
add next to nothing.
-/

namespace LocalizedText

/-- A quotient is not rounded beyond a whole number that it does not exceed. -/
theorem roundQuotient_le {numerator denominator bound : ℕ} (positive : 0 < denominator)
    (bounded : numerator ≤ bound * denominator) : roundQuotient numerator denominator ≤ bound := by
  have error := (roundQuotient_error numerator positive).1
  by_contra above
  have least : (bound + 1) * denominator ≤ roundQuotient numerator denominator * denominator :=
    Nat.mul_le_mul_right denominator (by omega)
  rw [Nat.add_mul] at least
  omega

section Series

theorem logarithmScale_pos : 0 < logarithmScale := by
  decide +kernel

/-- For a small square the series is little more than its first term. -/
theorem oddPowerSeries_le {square : ℕ} (small : 4 * square ≤ logarithmScale) (terms : ℕ) {odd : ℕ}
    (positive : 0 < odd) (power : ℕ) :
    2 * oddPowerSeries square terms odd power ≤ 3 * power + 4 * terms := by
  induction terms generalizing odd power with
  | zero => simp [oddPowerSeries]
  | succ terms inductionHypothesis =>
      have first : roundQuotient power odd ≤ power :=
        roundQuotient_le positive (Nat.le_mul_of_pos_right power positive)
      have next : roundQuotient (power * square) logarithmScale ≤ power / 4 + 1 := by
        apply roundQuotient_le logarithmScale_pos
        have quarter : power ≤ 4 * (power / 4 + 1) := by omega
        have product := Nat.mul_le_mul quarter small
        linarith
      have rest := inductionHypothesis (show 0 < odd + 2 by omega)
        (roundQuotient (power * square) logarithmScale)
      rw [oddPowerSeries]
      omega

/-- The logarithm of a number between one half and two is about one at most. -/
theorem oddPowerSeries_of_ratio {numerator denominator : ℕ} (positive : 0 < numerator)
    (least : denominator ≤ 2 * numerator) (greatest : numerator ≤ 2 * denominator) :
    let argument := roundQuotient
      ((max numerator denominator - min numerator denominator) * logarithmScale)
      (numerator + denominator)
    50 * (2 * oddPowerSeries (roundQuotient (argument * argument) logarithmScale) logarithmTerms 1
      argument) ≤ 51 * logarithmScale := by
  intro argument
  have third : argument ≤ logarithmScale / 3 + 1 := by
    apply roundQuotient_le (by omega)
    have difference : 3 * (max numerator denominator - min numerator denominator) ≤
        numerator + denominator := by
      omega
    have whole : logarithmScale ≤ 3 * (logarithmScale / 3 + 1) := by omega
    have product := Nat.mul_le_mul difference whole
    linarith
  have square : roundQuotient (argument * argument) logarithmScale ≤ logarithmScale / 4 := by
    apply roundQuotient_le logarithmScale_pos
    apply (Nat.mul_le_mul third third).trans
    decide +kernel
  have series := oddPowerSeries_le (show 4 * roundQuotient (argument * argument) logarithmScale ≤
    logarithmScale by omega) logarithmTerms Nat.one_pos argument
  have large : 5000 ≤ logarithmScale ∧ logarithmTerms = 24 := by decide +kernel
  omega

end Series

section Powers

variable {decimal binary : ℤ}

theorem ten_zpow_le_of_nonneg (nonneg : 0 ≤ decimal) (proportion : 196 * decimal ≤ 59 * binary) :
    (10 : ℚ) ^ decimal ≤ 2 ^ binary := by
  apply (pow_le_pow_iff_left₀ (by positivity) (by positivity) (show 59 ≠ 0 by decide)).mp
  calc ((10 : ℚ) ^ decimal) ^ 59 = (10 ^ 59) ^ decimal := by
        rw [← zpow_natCast, ← zpow_natCast, zpow_comm]
    _ ≤ (2 ^ 196) ^ decimal := zpow_le_zpow_left₀ nonneg (by positivity) (by norm_num)
    _ = 2 ^ (196 * decimal) := by rw [zpow_mul]; norm_cast
    _ ≤ 2 ^ (59 * binary) := zpow_le_zpow_right₀ (by norm_num) proportion
    _ = (2 ^ binary) ^ 59 := by rw [mul_comm, zpow_mul]; norm_cast

theorem two_zpow_le_of_nonneg (nonneg : 0 ≤ decimal) (proportion : 28 * binary ≤ 93 * decimal) :
    (2 : ℚ) ^ binary ≤ 10 ^ decimal := by
  apply (pow_le_pow_iff_left₀ (by positivity) (by positivity) (show 28 ≠ 0 by decide)).mp
  calc ((2 : ℚ) ^ binary) ^ 28 = 2 ^ (28 * binary) := by rw [mul_comm, zpow_mul]; norm_cast
    _ ≤ 2 ^ (93 * decimal) := zpow_le_zpow_right₀ (by norm_num) proportion
    _ = (2 ^ 93) ^ decimal := by rw [zpow_mul]; norm_cast
    _ ≤ (10 ^ 28) ^ decimal := zpow_le_zpow_left₀ nonneg (by positivity) (by norm_num)
    _ = (10 ^ decimal) ^ 28 := by rw [← zpow_natCast, ← zpow_natCast, zpow_comm]

theorem ten_zpow_le (above : 196 * decimal ≤ 59 * binary) (below : 93 * decimal ≤ 28 * binary) :
    (10 : ℚ) ^ decimal ≤ 2 ^ binary := by
  rcases le_total 0 decimal with nonneg | nonpos
  · exact ten_zpow_le_of_nonneg nonneg above
  · have inverse := two_zpow_le_of_nonneg (neg_nonneg.mpr nonpos)
      (show 28 * -binary ≤ 93 * -decimal by omega)
    rwa [zpow_neg, zpow_neg, inv_le_inv₀ (by positivity) (by positivity)] at inverse

theorem two_zpow_le (above : 28 * binary ≤ 93 * decimal) (below : 59 * binary ≤ 196 * decimal) :
    (2 : ℚ) ^ binary ≤ 10 ^ decimal := by
  have inverse := ten_zpow_le (show 196 * -decimal ≤ 59 * -binary by omega)
    (show 93 * -decimal ≤ 28 * -binary by omega)
  rwa [zpow_neg, zpow_neg, inv_le_inv₀ (by positivity) (by positivity)] at inverse

end Powers

namespace Double

/-- A finite double that is off from a number by no more than an error. -/
structure IsClose (double : Double) (exact error : ℚ) : Prop where
  isFinite : double.isFinite = true
  error_le : |double.number - exact| ≤ error

section Close

variable {double left right : Double} {exact rounded error leftExact rightExact leftError
  rightError : ℚ}

theorem Rounds.isClose (rounds : double.Rounds rounded) (near : |rounded - exact| ≤ error)
    (small : |rounded| ≤ 10 ^ 4) : double.IsClose exact (error + 1 / 10 ^ 10) := by
  refine ⟨rounds.isFinite, ?_⟩
  have own := rounds.error_le
  have split := abs_sub_le double.number rounded exact
  rw [abs_sub_comm rounded double.number] at own
  norm_num at own small ⊢
  linarith

theorem IsClose.mono (close : double.IsClose exact error) {more : ℚ} (less : error ≤ more) :
    double.IsClose exact more :=
  ⟨close.isFinite, close.error_le.trans less⟩

theorem abs_le_limit (near : |rounded - exact| ≤ error) (small : |exact| + error ≤ 10 ^ 4) :
    |rounded| ≤ 10 ^ 4 ∧ |rounded| ≤ limit := by
  have whole : |rounded| ≤ |rounded - exact| + |exact| := by
    simpa using abs_add_le (rounded - exact) exact
  have reached : (3 / 2 * 10 ^ 4 : ℚ) ≤ limit := le_limit (by decide)
  constructor <;> linarith

theorem IsClose.shift (close : double.IsClose rounded error) {more : ℚ}
    (near : |rounded - exact| ≤ more) : double.IsClose exact (error + more) :=
  ⟨close.isFinite, (abs_sub_le _ rounded _).trans (add_le_add close.error_le near)⟩

theorem IsClose.times (leftClose : left.IsClose leftExact leftError)
    (rightClose : right.IsClose rightExact rightError)
    (small : |leftExact * rightExact| +
      (leftError * rightError + |leftExact| * rightError + leftError * |rightExact|) ≤ 10 ^ 4) :
    (left.times right).IsClose (leftExact * rightExact)
      (leftError * rightError + |leftExact| * rightError + leftError * |rightExact| +
        1 / 10 ^ 10) := by
  have leftError_le := leftClose.error_le
  have rightError_le := rightClose.error_le
  have near : |left.number * right.number - leftExact * rightExact| ≤
      leftError * rightError + |leftExact| * rightError + leftError * |rightExact| := by
    have parts : left.number * right.number - leftExact * rightExact =
        (left.number - leftExact) * (right.number - rightExact) +
          leftExact * (right.number - rightExact) + (left.number - leftExact) * rightExact := by
      ring
    rw [parts]
    apply (abs_add_three _ _ _).trans
    simp only [abs_mul]
    gcongr
    exact (abs_nonneg _).trans leftError_le
  have bounded := abs_le_limit near small
  exact (rounds_times leftClose.isFinite rightClose.isFinite bounded.2).isClose near bounded.1

theorem IsClose.plus (leftClose : left.IsClose leftExact leftError)
    (rightClose : right.IsClose rightExact rightError)
    (small : |leftExact + rightExact| + (leftError + rightError) ≤ 10 ^ 4) :
    (left.plus right).IsClose (leftExact + rightExact) (leftError + rightError + 1 / 10 ^ 10) := by
  have near : |left.number + right.number - (leftExact + rightExact)| ≤ leftError + rightError := by
    rw [add_sub_add_comm]
    exact (abs_add_le _ _).trans (add_le_add leftClose.error_le rightClose.error_le)
  have bounded := abs_le_limit near small
  exact (rounds_plus leftClose.isFinite rightClose.isFinite bounded.2).isClose near bounded.1

theorem ofQuotient_isClose {numerator denominator : ℕ} (positive : 0 < denominator)
    (small : (numerator / denominator : ℚ) ≤ 10 ^ 4) (negative : Bool) :
    (ofQuotient negative numerator denominator).IsClose
      (if negative then -(numerator / denominator) else numerator / denominator)
      (1 / 10 ^ 10) := by
  have reached : (3 / 2 * 10 ^ 4 : ℚ) ≤ limit := le_limit (by decide)
  have rounds := rounds_ofQuotient positive (small.trans (by linarith)) negative
  have nonneg : (0 : ℚ) ≤ numerator / denominator := by positivity
  have bounded : |(if negative then -(numerator / denominator) else numerator / denominator : ℚ)| ≤
      10 ^ 4 := by
    split <;> simpa [abs_of_nonneg nonneg] using small
  have close := rounds.isClose (le_of_eq (by rw [sub_self, abs_zero])) bounded
  rwa [zero_add] at close

theorem ofInt_isClose {value : ℤ} (small : |value| ≤ 10 ^ 4) :
    (ofInt value).IsClose value (1 / 10 ^ 10) := by
  have size : ((value.natAbs : ℕ) / (1 : ℕ) : ℚ) = |(value : ℚ)| := by
    rw [Nat.cast_one, div_one, Nat.cast_natAbs, Int.cast_abs]
  have close := ofQuotient_isClose Nat.one_pos (by rw [size]; exact_mod_cast small)
    (decide (value < 0))
  rw [size] at close
  by_cases negative : value < 0
  · simpa [ofInt, negative, abs_of_neg] using close
  · have nonneg : (0 : ℚ) ≤ value := by exact_mod_cast not_lt.mp negative
    simpa [ofInt, negative, abs_of_nonneg nonneg] using close

/-- The logarithm of a number between one half and two is close to none at all. -/
theorem naturalLog_isClose {numerator denominator : ℕ} (positive : 0 < numerator)
    (least : denominator ≤ 2 * numerator) (greatest : numerator ≤ 2 * denominator) :
    (naturalLog numerator denominator).IsClose 0 (103 / 100) := by
  have series := oddPowerSeries_of_ratio positive least greatest
  simp only [naturalLog] at series ⊢
  generalize 2 * oddPowerSeries _ logarithmTerms 1 _ = sum at series ⊢
  have scale : (0 : ℚ) < logarithmScale := Nat.cast_pos.mpr logarithmScale_pos
  have bounded : (sum / logarithmScale : ℚ) ≤ 51 / 50 := by
    rw [div_le_div_iff₀ scale (by norm_num)]
    exact_mod_cast (by linarith : sum * 50 ≤ 51 * logarithmScale)
  have nonneg : (0 : ℚ) ≤ sum / logarithmScale := div_nonneg (Nat.cast_nonneg _) scale.le
  have close := ofQuotient_isClose logarithmScale_pos (bounded.trans (by norm_num))
    (decide (numerator < denominator))
  have near : |(if decide (numerator < denominator) then -(sum / logarithmScale)
      else sum / logarithmScale : ℚ) - 0| ≤ 51 / 50 := by
    split <;> simpa [abs_of_nonneg nonneg] using bounded
  exact (close.shift near).mono (by norm_num)

end Close

section DecimalLog

/-- The decimal logarithm of two, as it is multiplied. -/
def logOfTwo : ℚ :=
  661971961083 / 2 ^ 41

theorem logOfTwoTail_isClose : logOfTwoTail.IsClose 0 (2 / 10 ^ 10) := by
  have close : logOfTwoTail.IsClose _ _ :=
    ofQuotient_isClose (by positivity) (by norm_num) false
  have near : |((369423907715893078616 : ℕ) / (10 ^ 33 : ℕ) : ℚ) - 0| ≤ 1 / 10 ^ 10 := by
    norm_num [abs_le]
  exact (close.shift near).mono (by norm_num)

theorem decimalsPerNatural_isClose : decimalsPerNatural.IsClose (44 / 100) (1 / 100) := by
  have close : decimalsPerNatural.IsClose _ _ :=
    ofQuotient_isClose (by positivity) (by norm_num) false
  have near : |((434294481903251827651 : ℕ) / (10 ^ 21 : ℕ) : ℚ) - 44 / 100| ≤ 9 / 1000 := by
    norm_num [abs_le]
  exact (close.shift near).mono (by norm_num)

theorem logOfTwoHead_isClose : logOfTwoHead.IsClose logOfTwo (1 / 10 ^ 10) := by
  have close : logOfTwoHead.IsClose _ _ :=
    ofQuotient_isClose (by positivity) (by norm_num) false
  have near : |((661971961083 : ℕ) / (2 ^ 41 : ℕ) : ℚ) - logOfTwo| ≤ 0 := by
    norm_num [logOfTwo]
  exact (close.shift near).mono (by norm_num)

/-- What the power of two contributes outweighs everything else in a logarithm. -/
theorem sum_isClose {multiple : ℤ} (bounded : |multiple| ≤ 1074) {log : Double}
    (logClose : log.IsClose 0 (103 / 100)) :
    ((((ofInt multiple).times logOfTwoTail).plus (decimalsPerNatural.times log)).plus
      ((ofInt multiple).times logOfTwoHead)).IsClose (multiple * logOfTwo) (1 / 2) := by
  have size : |(multiple : ℚ)| ≤ 1074 := by exact_mod_cast bounded
  have logSize : |logOfTwo| ≤ 1 := by norm_num [logOfTwo, abs_le]
  have multipleClose := ofInt_isClose (show |multiple| ≤ 10 ^ 4 by linarith)
  have tail : ((ofInt multiple).times logOfTwoTail).IsClose (multiple * 0) (1 / 10 ^ 6) := by
    apply (multipleClose.times logOfTwoTail_isClose _).mono
    · norm_num
      linarith
    · norm_num
      linarith
  have factor : (decimalsPerNatural.times log).IsClose (44 / 100 * 0) (48 / 100) := by
    apply (decimalsPerNatural_isClose.times logClose _).mono
    · norm_num [abs_of_pos]
    · norm_num [abs_of_pos]
  have product : |(multiple : ℚ) * logOfTwo| ≤ 1074 := by
    rw [abs_mul]
    nlinarith [abs_nonneg (multiple : ℚ)]
  have head : ((ofInt multiple).times logOfTwoHead).IsClose (multiple * logOfTwo) (1 / 10 ^ 6) := by
    apply (multipleClose.times logOfTwoHead_isClose _).mono
    · norm_num at logSize ⊢
      linarith
    · norm_num at logSize product ⊢
      linarith
  rw [mul_zero] at tail factor
  have both := tail.plus factor (by norm_num)
  rw [add_zero] at both
  have whole := both.plus head (by
    rw [zero_add]
    linarith)
  rw [zero_add] at whole
  exact whole.mono (by norm_num)

theorem log2_bounds {magnitude : Magnitude} (positive : 0 < magnitude.units) :
    (2 : ℚ) ^ ((magnitude.units.log2 : ℤ) - 1074) ≤ magnitude.value ∧
      magnitude.value ≤ 2 ^ ((magnitude.units.log2 : ℤ) - 1074 + 1) := by
  have one : (unitsPerOne : ℚ) = 2 ^ (1074 : ℤ) := by
    simp only [unitsPerOne, Nat.cast_pow, Nat.cast_ofNat, zpow_ofNat]
  have least : ((2 ^ magnitude.units.log2 : ℕ) : ℚ) ≤ magnitude.units :=
    Nat.cast_le.mpr (Nat.log2_self_le positive.ne')
  have greatest : (magnitude.units : ℚ) ≤ (2 ^ (magnitude.units.log2 + 1) : ℕ) :=
    Nat.cast_le.mpr Nat.lt_log2_self.le
  rw [Nat.cast_pow, Nat.cast_ofNat, ← zpow_natCast] at least greatest
  rw [Magnitude.value, one]
  generalize (1074 : ℤ) = exponent
  rw [Nat.cast_succ] at greatest
  rw [le_div_iff₀ (by positivity), div_le_iff₀ (by positivity), ← zpow_add₀ two_ne_zero,
    ← zpow_add₀ two_ne_zero]
  constructor
  · simpa using least
  · have sum : (magnitude.units.log2 : ℤ) - exponent + 1 + exponent =
        magnitude.units.log2 + 1 := by ring
    rw [sum]
    exact greatest

/-- The decimal logarithm goes with the power of two next to the magnitude. -/
theorem decimalLog_isClose {magnitude : Magnitude} (positive : 0 < magnitude.units) :
    ∃ multiple : ℤ, -1073 ≤ multiple ∧ multiple ≤ 1023 ∧
      (2 : ℚ) ^ (multiple - 1) ≤ magnitude.value ∧ magnitude.value ≤ 2 ^ (multiple + 1) ∧
      magnitude.decimalLog.IsClose (multiple * logOfTwo) (1 / 2) := by
  have below : magnitude.units.log2 < 2098 := by
    have bounded := magnitude.representable.1
    rw [overflowUnits] at bounded
    exact (Nat.log2_lt positive.ne').mpr bounded
  have bounds := log2_bounds positive
  have least := Nat.log2_self_le positive.ne'
  have greatest := @Nat.lt_log2_self magnitude.units
  simp only [Magnitude.decimalLog]
  -- Below one the next power of two is taken, so that the other factor is never above one.
  generalize magnitude.units.log2 = binary at below bounds least greatest ⊢
  rw [pow_succ] at greatest
  split
  · refine ⟨binary - 1074 + 1, by omega, by omega, ?_, ?_, ?_⟩
    · simpa using bounds.1
    · exact bounds.2.trans (zpow_le_zpow_right₀ (by norm_num) (by omega))
    · have size : |(binary : ℤ) - 1074 + 1| ≤ 1074 := by
        rw [abs_le]
        omega
      have power : 2 ^ (binary + 1) = 2 ^ binary * 2 := pow_succ 2 binary
      dsimp only
      exact sum_isClose size (naturalLog_isClose positive (by omega) (by omega))
  · refine ⟨binary - 1074, by omega, by omega, ?_, bounds.2, ?_⟩
    · exact le_trans (zpow_le_zpow_right₀ (by norm_num) (by omega)) bounds.1
    · have size : |(binary : ℤ) - 1074| ≤ 1074 := by
        rw [abs_le]
        omega
      dsimp only
      exact sum_isClose size (naturalLog_isClose positive (by omega) (by omega))

theorem floor?_bounds {double : Double} (finite : double.isFinite = true) :
    (double.floor?.getD 0 : ℚ) ≤ double.number ∧ double.number ≤ double.floor?.getD 0 + 1 := by
  rcases exists_finite finite with ⟨negative, magnitude, rfl⟩
  have one := cast_unitsPerOne_pos
  have least : (magnitude.integerPart : ℚ) ≤ magnitude.value := by
    have whole := Nat.cast_le (α := ℚ).mpr (Nat.div_mul_le_self magnitude.units unitsPerOne)
    rwa [Nat.cast_mul, ← le_div_iff₀ one] at whole
  have greatest : magnitude.value ≤ magnitude.integerPart + 1 := by
    have whole := Nat.cast_le (α := ℚ).mpr
      (Nat.lt_mul_div_succ magnitude.units Magnitude.unitsPerOne_pos).le
    rwa [Nat.cast_mul, mul_comm, ← div_le_iff₀ one, Nat.cast_succ] at whole
  have integral (whole : magnitude.isIntegral = true) : magnitude.value = magnitude.integerPart := by
    have multiple : magnitude.integerPart * unitsPerOne = magnitude.units :=
      Nat.div_mul_cancel (Nat.dvd_of_mod_eq_zero (eq_of_beq whole))
    rw [Magnitude.value, ← multiple, Nat.cast_mul, mul_div_cancel_right₀ _ one.ne']
  cases negative with
  | false => simpa [floor?, floorMagnitude, number] using And.intro least greatest
  | true =>
      by_cases whole : magnitude.isIntegral = true
      · simp [floor?, floorMagnitude, number, whole, integral whole]
      · simp only [floor?, floorMagnitude, number, whole]
        norm_num
        constructor <;> linarith

end DecimalLog

/--
The decimal exponent of a double that is not zero lies in the range of doubles, and the double is of
the size of the power of ten.
-/
theorem decimalExponent_bounds {magnitude : Magnitude} (positive : 0 < magnitude.units)
    (negative : Bool) :
    let exponent := (finite negative magnitude).decimalExponent
    exponent ≤ 308 ∧ -324 ≤ exponent ∧ 10 ^ exponent ≤ 8 * magnitude.value ∧
      magnitude.value ≤ 128 * 10 ^ exponent := by
  intro exponent
  rcases decimalLog_isClose positive with ⟨multiple, least, greatest, above, below, close⟩
  have floor := floor?_bounds close.isFinite
  have error := abs_le.mp close.error_le
  have isFloor : magnitude.decimalLog.floor?.getD 0 = exponent := rfl
  rw [isFloor] at floor
  generalize magnitude.decimalLog.number = log at floor error
  have leastCast : (-1073 : ℚ) ≤ multiple := by exact_mod_cast least
  have greatestCast : (multiple : ℚ) ≤ 1023 := by exact_mod_cast greatest
  norm_num [logOfTwo] at error
  -- Bounds of the exponent in terms of the binary one are all that the powers need.
  have large : (exponent : ℚ) < 309 := by linarith
  have small : (-325 : ℚ) < exponent := by linarith
  have most : (exponent : ℚ) ≤ multiple * (661971961083 / 2199023255552) + 1 / 2 := by linarith
  have fewest : (multiple * (661971961083 / 2199023255552) - 3 / 2 : ℚ) ≤ exponent := by linarith
  refine ⟨?_, ?_, ?_, ?_⟩
  · have cast : exponent < 309 := by exact_mod_cast large
    omega
  · have cast : -325 < exponent := by exact_mod_cast small
    omega
  · have ratio : (10 : ℚ) ^ exponent ≤ 2 ^ (multiple + 2) := by
      apply ten_zpow_le
      · have cast : (196 * exponent : ℚ) ≤ 59 * (multiple + 2) := by linarith
        exact_mod_cast cast
      · have cast : (93 * exponent : ℚ) ≤ 28 * (multiple + 2) := by linarith
        exact_mod_cast cast
    calc (10 : ℚ) ^ exponent ≤ 2 ^ (multiple + 2) := ratio
      _ = 2 ^ (3 + (multiple - 1)) := by ring_nf
      _ = 8 * 2 ^ (multiple - 1) := by rw [zpow_add₀ two_ne_zero]; norm_num
      _ ≤ 8 * magnitude.value := mul_le_mul_of_nonneg_left above (by norm_num)
  · have ratio : (2 : ℚ) ^ (multiple - 6) ≤ 10 ^ exponent := by
      apply two_zpow_le
      · have cast : (28 * (multiple - 6) : ℚ) ≤ 93 * exponent := by linarith
        exact_mod_cast cast
      · have cast : (59 * (multiple - 6) : ℚ) ≤ 196 * exponent := by linarith
        exact_mod_cast cast
    calc magnitude.value ≤ 2 ^ (multiple + 1) := below
      _ = 2 ^ (7 + (multiple - 6)) := by ring_nf
      _ = 128 * 2 ^ (multiple - 6) := by rw [zpow_add₀ two_ne_zero]; norm_num
      _ ≤ 128 * 10 ^ exponent := mul_le_mul_of_nonneg_left ratio (by norm_num)

end Double

end LocalizedText
