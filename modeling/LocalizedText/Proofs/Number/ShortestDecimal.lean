import LocalizedText.Proofs.Number.Digits
import Mathlib.Data.Nat.Log
import Mathlib.Tactic.Ring

/-!
# The interval of a magnitude

Every positive magnitude has an interval of numbers that read back as it. Seventeen digits suffice
to meet the interval, so the shortest decimal of a magnitude lies in it. The intervals of different
magnitudes do not overlap: neighbours with the same spacing meet in the middle between them, where
only the one with an even mantissa includes the end, and below a power of two the smaller spacing
counts. So a magnitude is determined by any number in its interval.
-/

namespace LocalizedText

namespace Magnitude

variable {magnitude : Magnitude}

/-- A number is in the interval of a magnitude; the distances are those in fourths of a unit. -/
def Covers (magnitude : Magnitude) (number : ℚ) : Prop :=
  if magnitude.includesEnds then
    (4 * magnitude.units - magnitude.lowerReach : ℚ) ≤ 4 * (number * unitsPerOne) ∧
      4 * (number * unitsPerOne) ≤ 4 * magnitude.units + 2 * magnitude.spacing
  else
    (4 * magnitude.units - magnitude.lowerReach : ℚ) < 4 * (number * unitsPerOne) ∧
      4 * (number * unitsPerOne) < 4 * magnitude.units + 2 * magnitude.spacing

theorem unitsPerOne_pos : 0 < unitsPerOne := by
  rw [unitsPerOne]
  exact Nat.two_pow_pos 1074

theorem spacing_pos (magnitude : Magnitude) : 0 < magnitude.spacing :=
  Nat.two_pow_pos _

theorem lowerReach_le (magnitude : Magnitude) : magnitude.lowerReach ≤ 2 * magnitude.spacing := by
  unfold lowerReach
  split <;> omega

/-- A positive magnitude is less than a power of two times its spacing. -/
theorem units_lt_spacing (magnitude : Magnitude) :
    magnitude.units < 2 ^ 53 * magnitude.spacing := by
  unfold spacing
  rw [← pow_add]
  apply Nat.lt_log2_self.trans_le
  apply Nat.pow_le_pow_right (by decide)
  omega

theorem spacing_le_units (positive : 0 < magnitude.units) :
    magnitude.spacing ≤ magnitude.units := by
  apply le_trans _ (Nat.log2_self_le (Nat.pos_iff_ne_zero.mp positive))
  apply Nat.pow_le_pow_right (by decide)
  omega

/-- Even below a power of two the interval reaches down far enough. -/
theorem units_le_lowerReach (magnitude : Magnitude) :
    magnitude.units ≤ 2 ^ 52 * magnitude.lowerReach := by
  unfold lowerReach
  split
  · next isPower =>
      have wide : 52 ≤ magnitude.units.log2 := by
        by_contra narrow
        have single : magnitude.spacing = 1 := by
          unfold spacing
          rw [Nat.sub_eq_zero_of_le (by omega), pow_zero]
        omega
      have exact : 2 ^ 52 * magnitude.spacing = 2 ^ magnitude.units.log2 := by
        unfold spacing
        rw [← pow_add]
        congr 1
        omega
      rw [exact]
      exact isPower.1.le
  · have := magnitude.units_lt_spacing
    omega

theorem zpow_mul_pow_toNat (exponent : Int) :
    (10 : ℚ) ^ exponent * 10 ^ (-exponent).toNat = 10 ^ exponent.toNat := by
  rw [← zpow_natCast, ← zpow_natCast, ← zpow_add₀ (by norm_num)]
  congr 1
  omega

/-- The point of a grid reads back as a magnitude exactly when it is in the interval. -/
theorem readsBack_iff (positive : 0 < magnitude.units) (digits : Nat) (exponent : Int) :
    magnitude.readsBack digits exponent = true ↔
      magnitude.Covers (digits * 10 ^ exponent) := by
  have reach : magnitude.lowerReach ≤ 4 * magnitude.units := by
    have := magnitude.lowerReach_le
    have := spacing_le_units positive
    omega
  have scale := zpow_mul_pow_toNat exponent
  have factor : (0 : ℚ) < 10 ^ (-exponent).toNat := by positivity
  have low : ((4 * magnitude.units - magnitude.lowerReach : Nat) : ℚ) =
      4 * magnitude.units - magnitude.lowerReach := by
    rw [Nat.cast_sub reach, Nat.cast_mul, Nat.cast_ofNat]
  have point : ((4 * digits * (unitsPerOne * 10 ^ exponent.toNat) : Nat) : ℚ) =
      4 * (digits * 10 ^ exponent * unitsPerOne) * 10 ^ (-exponent).toNat := by
    push_cast
    rw [← scale]
    ring
  have lower : (4 * magnitude.units - magnitude.lowerReach) * 10 ^ (-exponent).toNat ≤
        4 * digits * (unitsPerOne * 10 ^ exponent.toNat) ↔
      (4 * magnitude.units - magnitude.lowerReach : ℚ) ≤
        4 * (digits * 10 ^ exponent * unitsPerOne) := by
    rw [← Nat.cast_le (α := ℚ), point, Nat.cast_mul, low, Nat.cast_pow, Nat.cast_ofNat,
      mul_le_mul_iff_left₀ factor]
  have upper : 4 * digits * (unitsPerOne * 10 ^ exponent.toNat) ≤
        (4 * magnitude.units + 2 * magnitude.spacing) * 10 ^ (-exponent).toNat ↔
      4 * (digits * 10 ^ exponent * unitsPerOne) ≤
        (4 * magnitude.units + 2 * magnitude.spacing : ℚ) := by
    rw [← Nat.cast_le (α := ℚ), point, Nat.cast_mul, Nat.cast_pow, Nat.cast_ofNat,
      mul_le_mul_iff_left₀ factor]
    push_cast
    rfl
  have lowerStrict : (4 * magnitude.units - magnitude.lowerReach) * 10 ^ (-exponent).toNat <
        4 * digits * (unitsPerOne * 10 ^ exponent.toNat) ↔
      (4 * magnitude.units - magnitude.lowerReach : ℚ) <
        4 * (digits * 10 ^ exponent * unitsPerOne) := by
    rw [← Nat.cast_lt (α := ℚ), point, Nat.cast_mul, low, Nat.cast_pow, Nat.cast_ofNat,
      mul_lt_mul_iff_left₀ factor]
  have upperStrict : 4 * digits * (unitsPerOne * 10 ^ exponent.toNat) <
        (4 * magnitude.units + 2 * magnitude.spacing) * 10 ^ (-exponent).toNat ↔
      4 * (digits * 10 ^ exponent * unitsPerOne) <
        (4 * magnitude.units + 2 * magnitude.spacing : ℚ) := by
    rw [← Nat.cast_lt (α := ℚ), point, Nat.cast_mul, Nat.cast_pow, Nat.cast_ofNat,
      mul_lt_mul_iff_left₀ factor]
    push_cast
    rfl
  unfold readsBack Covers stepsOf
  split
  · simp only [Bool.and_eq_true, decide_eq_true_eq, lower, upper]
  · simp only [Bool.and_eq_true, decide_eq_true_eq, lowerStrict, upperStrict]

theorem Covers.pos {number : ℚ} (positive : 0 < magnitude.units)
    (covered : magnitude.Covers number) : 0 < number := by
  have reach : magnitude.lowerReach < 4 * magnitude.units := by
    have := magnitude.lowerReach_le
    have := spacing_le_units positive
    omega
  have reach : (magnitude.lowerReach : ℚ) < 4 * magnitude.units := by exact_mod_cast reach
  have one : (0 : ℚ) < unitsPerOne := by exact_mod_cast unitsPerOne_pos
  have above : 0 < number * unitsPerOne := by
    unfold Covers at covered
    split at covered
    · linarith [covered.1]
    · linarith [covered.1]
  exact pos_of_mul_pos_left above one.le

theorem covers_of_near {number : ℚ}
    (near : |4 * (number * unitsPerOne) - 4 * magnitude.units| < magnitude.lowerReach) :
    magnitude.Covers number := by
  have reach : (magnitude.lowerReach : ℚ) ≤ 2 * magnitude.spacing := by
    exact_mod_cast magnitude.lowerReach_le
  rw [abs_lt] at near
  unfold Covers
  split
  · constructor <;> linarith
  · constructor <;> linarith

theorem unitsPerOne_le : unitsPerOne ≤ 10 ^ decimalScale := by
  decide +kernel

theorem scaled_pos (positive : 0 < magnitude.units) : 0 < magnitude.scaled := by
  apply Nat.div_pos _ unitsPerOne_pos
  exact unitsPerOne_le.trans (Nat.le_mul_of_pos_left _ positive)

/-- A magnitude is at least the power of ten before its decimal exponent. -/
theorem zpow_decimalPoint_le (positive : 0 < magnitude.units) :
    (10 : ℚ) ^ (magnitude.decimalPoint - 1) * unitsPerOne ≤ magnitude.units := by
  have length : 0 < DecimalLiteral.decimalLength magnitude.scaled := Nat.length_toDigits_pos
  have point : magnitude.decimalPoint - 1 + decimalScale =
      (DecimalLiteral.decimalLength magnitude.scaled - 1 : Nat) := by
    rw [decimalPoint, Nat.cast_pred length]
    ring
  have whole : 10 ^ (DecimalLiteral.decimalLength magnitude.scaled - 1) * unitsPerOne ≤
      magnitude.units * 10 ^ decimalScale :=
    (Nat.mul_le_mul_right _ (DecimalLiteral.pow_decimalLength (scaled_pos positive)).1).trans
      (Nat.div_mul_le_self _ _)
  have power : (0 : ℚ) < 10 ^ decimalScale := by positivity
  rw [← mul_le_mul_iff_left₀ power, mul_right_comm, ← zpow_natCast (10 : ℚ) decimalScale,
    ← zpow_add₀ (by norm_num), point, zpow_natCast, zpow_natCast]
  exact_mod_cast whole

/-- On a fine enough grid one of the two neighbours of a magnitude reads back as it. -/
theorem readsBack_of_fine (positive : 0 < magnitude.units) {exponent : Int}
    (fine : (2 * 10 ^ exponent * unitsPerOne : ℚ) < magnitude.lowerReach) :
    magnitude.readsBack ((stepsOf magnitude.units exponent).1 /
        (stepsOf magnitude.units exponent).2) exponent = true ∨
      magnitude.readsBack ((stepsOf magnitude.units exponent).1 /
        (stepsOf magnitude.units exponent).2 + 1) exponent = true := by
  unfold stepsOf
  simp only
  have steps : 0 < unitsPerOne * 10 ^ exponent.toNat :=
    Nat.mul_pos unitsPerOne_pos (Nat.pow_pos (by decide))
  have factor : (0 : ℚ) < 10 ^ (-exponent).toNat := by positivity
  have scale := zpow_mul_pow_toNat exponent
  have grid : (10 : ℚ) ^ exponent * unitsPerOne * 10 ^ (-exponent).toNat =
      (unitsPerOne * 10 ^ exponent.toNat : Nat) := by
    push_cast
    rw [← scale]
    ring
  have below := Nat.div_mul_le_self (magnitude.units * 10 ^ (-exponent).toNat)
    (unitsPerOne * 10 ^ exponent.toNat)
  have above := Nat.lt_div_mul_add steps (a := magnitude.units * 10 ^ (-exponent).toNat)
  generalize magnitude.units * 10 ^ (-exponent).toNat / (unitsPerOne * 10 ^ exponent.toNat) =
    floor at below above ⊢
  have below : (floor * 10 ^ exponent * unitsPerOne : ℚ) ≤ magnitude.units := by
    have cast : ((floor * (unitsPerOne * 10 ^ exponent.toNat) : Nat) : ℚ) ≤
        (magnitude.units * 10 ^ (-exponent).toNat : Nat) := by
      exact_mod_cast below
    rw [Nat.cast_mul, ← grid, Nat.cast_mul, Nat.cast_pow, Nat.cast_ofNat, ← mul_assoc,
      ← mul_assoc, mul_le_mul_iff_left₀ factor] at cast
    exact cast
  have above : (magnitude.units : ℚ) < (floor + 1) * 10 ^ exponent * unitsPerOne := by
    have cast : ((magnitude.units * 10 ^ (-exponent).toNat : Nat) : ℚ) <
        (floor * (unitsPerOne * 10 ^ exponent.toNat) +
          unitsPerOne * 10 ^ exponent.toNat : Nat) := by
      exact_mod_cast above
    rw [← Nat.succ_mul, Nat.cast_mul, Nat.cast_mul, ← grid, Nat.cast_pow, Nat.cast_ofNat,
      ← mul_assoc, ← mul_assoc, mul_lt_mul_iff_left₀ factor, Nat.cast_succ] at cast
    exact cast
  rw [readsBack_iff positive, readsBack_iff positive]
  -- The nearer neighbour is off by half a step at most, which is within reach.
  by_cases near : 2 * (magnitude.units : ℚ) ≤ (2 * floor + 1) * 10 ^ exponent * unitsPerOne
  · left
    apply covers_of_near
    rw [abs_lt]
    constructor <;> linarith
  · right
    apply covers_of_near
    rw [abs_lt]
    push_cast
    constructor <;> linarith

/-- The chosen point of a grid reads back as the magnitude. -/
theorem covers_of_nearestOnGrid? (positive : 0 < magnitude.units) {tie : DecimalTie}
    {exponent : Int} {decimal : Decimal}
    (found : magnitude.nearestOnGrid? tie exponent = some decimal) :
    magnitude.Covers decimal.value := by
  have chosen : magnitude.readsBack decimal.digits decimal.exponent = true := by
    unfold nearestOnGrid? at found
    simp only at found
    split at found
    · next below above =>
        cases found
        simp only
        split
        · exact above
        · exact below
    · next below _ =>
        cases found
        exact below
    · next _ above =>
        cases found
        exact above
    · cases found
  exact (readsBack_iff positive _ _).mp chosen

/-- With seventeen digits the grid is fine enough. -/
theorem exists_nearestOnGrid? (positive : 0 < magnitude.units) (tie : DecimalTie) :
    ∃ decimal, magnitude.nearestOnGrid? tie (magnitude.decimalPoint - 1 - (16 : Nat)) =
      some decimal := by
  have fine : (2 * 10 ^ (magnitude.decimalPoint - 1 - (16 : Nat)) * unitsPerOne : ℚ) <
      magnitude.lowerReach := by
    have least := zpow_decimalPoint_le positive
    have split : (10 : ℚ) ^ (magnitude.decimalPoint - 1) =
        10 ^ (magnitude.decimalPoint - 1 - (16 : Nat)) * 10 ^ 16 := by
      rw [← zpow_natCast, ← zpow_add₀ (by norm_num), sub_add_cancel]
    have reach : (magnitude.units : ℚ) ≤ 2 ^ 52 * magnitude.lowerReach := by
      exact_mod_cast magnitude.units_le_lowerReach
    have units : (0 : ℚ) < magnitude.units := by exact_mod_cast positive
    rw [split] at least
    linarith
  unfold nearestOnGrid?
  simp only
  rcases readsBack_of_fine positive fine with below | above
  · rw [below]
    cases magnitude.readsBack _ _
    · exact ⟨_, rfl⟩
    · exact ⟨_, rfl⟩
  · rw [above]
    cases magnitude.readsBack _ _
    · exact ⟨_, rfl⟩
    · exact ⟨_, rfl⟩

/-- The shortest decimal is on the coarsest grid that has a point in the interval. -/
theorem exists_grid_of_shortest (positive : 0 < magnitude.units) (tie : DecimalTie) :
    ∃ index < maxShortestDigits,
      magnitude.nearestOnGrid? tie (magnitude.decimalPoint - 1 - index) =
          some (magnitude.shortest tie) ∧
        ∀ coarser < index,
          magnitude.nearestOnGrid? tie (magnitude.decimalPoint - 1 - coarser) = none := by
  unfold shortest
  simp only
  rcases exists_nearestOnGrid? positive tie with ⟨last, found⟩
  cases chosen : (List.range maxShortestDigits).findSome? fun (index : Nat) =>
      magnitude.nearestOnGrid? tie (magnitude.decimalPoint - 1 - index) with
  | none =>
      -- The grid with seventeen digits is among those that are tried.
      rw [List.findSome?_eq_none_iff] at chosen
      have missing := chosen 16 (by decide)
      rw [found] at missing
      cases missing
  | some decimal =>
      rcases List.findSome?_eq_some_iff.mp chosen with ⟨before, index, after, split, onGrid, none⟩
      have inRange : index < maxShortestDigits := List.mem_range.mp (by simp [split])
      refine ⟨index, inRange, onGrid, ?_⟩
      intro coarser less
      apply none
      have tried := List.mem_range.mpr (less.trans inRange)
      have sorted := List.pairwise_lt_range (n := maxShortestDigits)
      rw [split, List.pairwise_append, List.pairwise_cons] at sorted
      rw [split, List.mem_append, List.mem_cons] at tried
      rcases tried with before | same | later
      · exact before
      · omega
      · have := sorted.2.1.1 coarser later
        omega

theorem covers_shortest (positive : 0 < magnitude.units) (tie : DecimalTie) :
    magnitude.Covers (magnitude.shortest tie).value := by
  rcases exists_grid_of_shortest positive tie with ⟨index, -, onGrid, -⟩
  exact covers_of_nearestOnGrid? positive onGrid

theorem digits_shortest_pos (positive : 0 < magnitude.units) (tie : DecimalTie) :
    0 < (magnitude.shortest tie).digits := by
  have value := (covers_shortest positive tie).pos positive
  rw [Decimal.value] at value
  have digits := pos_of_mul_pos_left value (by positivity)
  exact_mod_cast digits

/-- The mantissa of a magnitude, of at most 53 binary digits. -/
theorem exists_mantissa (magnitude : Magnitude) :
    ∃ mantissa, magnitude.units = mantissa * magnitude.spacing ∧ mantissa < 2 ^ 53 ∧
      (1 < magnitude.spacing → 2 ^ 52 ≤ mantissa) ∧
      (magnitude.includesEnds = true ↔ mantissa % 2 = 0) ∧
      (mantissa = 2 ^ 52 → 1 < magnitude.spacing → magnitude.lowerReach = magnitude.spacing) := by
  have exact : magnitude.units / magnitude.spacing * magnitude.spacing = magnitude.units :=
    Nat.div_mul_cancel (Nat.dvd_of_mod_eq_zero magnitude.representable.2)
  have log (wide : 1 < magnitude.spacing) :
      2 ^ 52 * magnitude.spacing = 2 ^ magnitude.units.log2 := by
    have above : 52 < magnitude.units.log2 := by
      by_contra narrow
      unfold spacing at wide
      rw [Nat.sub_eq_zero_of_le (by omega), pow_zero] at wide
      omega
    unfold spacing
    rw [← pow_add]
    congr 1
    omega
  refine ⟨magnitude.units / magnitude.spacing, exact.symm, ?_, ?_, ?_, ?_⟩
  · exact Nat.div_lt_of_lt_mul (by rw [Nat.mul_comm]; exact magnitude.units_lt_spacing)
  · intro wide
    rw [Nat.le_div_iff_mul_le magnitude.spacing_pos, log wide]
    apply Nat.log2_self_le
    intro zero
    simp [spacing, zero] at wide
  · unfold includesEnds
    rw [beq_iff_eq]
  · intro power wide
    rw [power, log wide] at exact
    rw [lowerReach, if_pos ⟨exact.symm, wide⟩]

/-- The spacing of a greater magnitude is a multiple of the one of a lesser magnitude. -/
theorem exists_ratio {lesser greater : Magnitude} (less : lesser.units < greater.units) :
    ∃ ratio, greater.spacing = ratio * lesser.spacing ∧ (ratio = 1 ∨ 2 ≤ ratio) := by
  have logs : lesser.units.log2 ≤ greater.units.log2 := by
    rw [Nat.log2_eq_log_two, Nat.log2_eq_log_two]
    exact Nat.log_mono_right less.le
  refine ⟨2 ^ (greater.units.log2 - 52 - (lesser.units.log2 - 52)), ?_, ?_⟩
  · unfold spacing
    rw [← pow_add]
    congr 1
    omega
  · cases greater.units.log2 - 52 - (lesser.units.log2 - 52) with
    | zero => exact Or.inl rfl
    | succ count =>
        right
        rw [pow_succ]
        have := Nat.two_pow_pos count
        omega

/--
The upper end of an interval is at most the lower end of the interval of a greater magnitude, and
they only meet where one of the mantissas is odd.
-/
theorem ends_le {lesser greater : Magnitude} (less : lesser.units < greater.units) :
    4 * lesser.units + 2 * lesser.spacing + greater.lowerReach ≤ 4 * greater.units ∧
      (lesser.includesEnds = true → greater.includesEnds = true →
        4 * lesser.units + 2 * lesser.spacing + greater.lowerReach < 4 * greater.units) := by
  rcases lesser.exists_mantissa with ⟨low, lowUnits, lowBound, -, lowEven, -⟩
  rcases greater.exists_mantissa with ⟨high, highUnits, -, highNormal, highEven, highPower⟩
  rcases exists_ratio less with ⟨ratio, highSpacing, size⟩
  have positive := lesser.spacing_pos
  have reach := greater.lowerReach_le
  have scaled {parts : Nat} (short : greater.lowerReach ≤ parts * greater.spacing) :
      (4 * low + 2 + parts * ratio ≤ 4 * (high * ratio) →
        4 * lesser.units + 2 * lesser.spacing + greater.lowerReach ≤ 4 * greater.units) ∧
      (4 * low + 2 + parts * ratio < 4 * (high * ratio) →
        4 * lesser.units + 2 * lesser.spacing + greater.lowerReach < 4 * greater.units) := by
    rw [highSpacing] at short highUnits
    rw [lowUnits, highUnits]
    constructor
    · intro mantissas
      have := Nat.mul_le_mul_right lesser.spacing mantissas
      linarith
    · intro mantissas
      have := Nat.mul_lt_mul_of_pos_right mantissas positive
      linarith
  rw [lowEven, highEven]
  -- Where the spacing grows, the greater mantissa has all its bits, and its interval may reach down
  -- only half as far.
  rcases size with same | wider
  · subst same
    rw [Nat.one_mul] at highSpacing
    have order : low < high := by
      rw [lowUnits, highUnits, highSpacing] at less
      exact Nat.lt_of_mul_lt_mul_right less
    have close := scaled reach
    refine ⟨close.1 (by omega), ?_⟩
    intro lowEven highEven
    exact close.2 (by omega)
  · have wide : 1 < greater.spacing := by
      rw [highSpacing]
      have := Nat.mul_le_mul wider positive
      omega
    rcases (highNormal wide).eq_or_lt with power | above
    · have single : greater.lowerReach ≤ 1 * greater.spacing := by
        rw [highPower power.symm wide, Nat.one_mul]
      have close := scaled single
      subst power
      refine ⟨close.1 (by omega), ?_⟩
      intro lowEven highEven
      exact close.2 (by omega)
    · have close := scaled reach
      have := Nat.mul_le_mul_right ratio above
      refine ⟨close.1 (by omega), ?_⟩
      intro lowEven highEven
      exact close.2 (by omega)

/-- The interval of a lesser magnitude has no number of the one of a greater magnitude. -/
theorem Covers.le {number : ℚ} {left right : Magnitude} (leftCovered : left.Covers number)
    (rightCovered : right.Covers number) : right.units ≤ left.units := by
  by_contra less
  rcases ends_le (Nat.lt_of_not_le less) with ⟨apart, strict⟩
  have apart : (4 * left.units + 2 * left.spacing + right.lowerReach : ℚ) ≤ 4 * right.units := by
    exact_mod_cast apart
  unfold Covers at leftCovered rightCovered
  cases leftEnds : left.includesEnds with
  | false =>
      rw [leftEnds, if_neg Bool.false_ne_true] at leftCovered
      split at rightCovered
      · linarith [leftCovered.2, rightCovered.1]
      · linarith [leftCovered.2, rightCovered.1]
  | true =>
      rw [if_pos leftEnds] at leftCovered
      cases rightEnds : right.includesEnds with
      | false =>
          rw [rightEnds, if_neg Bool.false_ne_true] at rightCovered
          linarith [leftCovered.2, rightCovered.1]
      | true =>
          rw [if_pos rightEnds] at rightCovered
          have strict : (4 * left.units + 2 * left.spacing + right.lowerReach : ℚ) <
              4 * right.units := by
            exact_mod_cast strict leftEnds rightEnds
          linarith [leftCovered.2, rightCovered.1]

/-- A magnitude is determined by any number in its interval. -/
theorem Covers.unique {number : ℚ} {left right : Magnitude} (leftCovered : left.Covers number)
    (rightCovered : right.Covers number) : left = right := by
  have units := Nat.le_antisymm (rightCovered.le leftCovered) (leftCovered.le rightCovered)
  cases left
  cases right
  simp only at units
  subst units
  rfl

theorem covers_zero {magnitude : Magnitude} (zero : magnitude.units = 0) :
    magnitude.Covers 0 := by
  have even : magnitude.includesEnds = true := by simp [includesEnds, zero]
  rw [Covers, if_pos even, zero, Nat.cast_zero, zero_mul, mul_zero]
  constructor
  · have reach : (0 : ℚ) ≤ magnitude.lowerReach := Nat.cast_nonneg _
    linarith
  · have spacing : (0 : ℚ) ≤ magnitude.spacing := Nat.cast_nonneg _
    linarith

end Magnitude

end LocalizedText
