import LocalizedText.Proofs.Number.RoundingError

/-!
# Powers of ten

A power of ten is found by repeated squaring, with a rounding after every product, and a negative one
by a division. The number of roundings is bounded by the exponent, so that the power is close to the
exact one wherever doubles reach it. Beyond that it is infinite, or zero.
-/

namespace LocalizedText

namespace Double

/-- What a number changes by in one rounding, as a factor. -/
def slack : ℚ :=
  1 + 1 / 2 ^ 40

/-- A finite double that at most so many roundings have taken away from a number. -/
structure IsNear (double : Double) (exact : ℚ) (roundings : ℕ) : Prop where
  isFinite : double.isFinite = true
  le : double.number ≤ exact * slack ^ roundings
  ge : exact ≤ double.number * slack ^ roundings

section Slack

variable {roundings more : ℕ}

theorem one_le_slack : 1 ≤ slack := by
  norm_num [slack]

theorem slack_pow_pos (roundings : ℕ) : 0 < slack ^ roundings :=
  pow_pos (zero_lt_one.trans_le one_le_slack) roundings

theorem slack_pow_le (few : roundings ≤ 1000) : slack ^ roundings ≤ 101 / 100 := by
  have hundred : slack ^ 100 ≤ 1 + 1 / 2 ^ 30 := by
    norm_num [slack]
  calc slack ^ roundings ≤ slack ^ 1000 := pow_le_pow_right₀ one_le_slack few
    _ = (slack ^ 100) ^ 10 := by rw [← pow_mul]
    _ ≤ (1 + 1 / 2 ^ 30) ^ 10 := pow_le_pow_left₀ (slack_pow_pos 100).le hundred 10
    _ ≤ 101 / 100 := by norm_num

theorem le_unitsPerOne : (2 ^ 43 : ℚ) ≤ unitsPerOne := by
  have exact : 2 ^ 43 ≤ unitsPerOne := by decide +kernel
  have cast := Nat.cast_le (α := ℚ).mpr exact
  rwa [Nat.cast_pow, Nat.cast_ofNat] at cast

end Slack

section Near

variable {double left right : Double} {exact rounded leftExact rightExact : ℚ}
  {roundings more leftRoundings rightRoundings : ℕ}

theorem IsNear.pos (near : double.IsNear exact roundings) (positive : 0 < exact) :
    0 < double.number :=
  pos_of_mul_pos_left (positive.trans_le near.ge) (slack_pow_pos roundings).le

theorem IsNear.mono (near : double.IsNear exact roundings) (positive : 0 < exact)
    (fewer : roundings ≤ more) : double.IsNear exact more := by
  have power := pow_le_pow_right₀ one_le_slack fewer
  refine ⟨near.isFinite, near.le.trans ?_, near.ge.trans ?_⟩
  · exact mul_le_mul_of_nonneg_left power positive.le
  · exact mul_le_mul_of_nonneg_left power (near.pos positive).le

/-- A number of many units changes by no more than the slack when it is rounded. -/
theorem Rounds.isNear_one (rounds : double.Rounds exact) (many : 2 ^ 42 ≤ exact * unitsPerOne) :
    double.IsNear exact 1 := by
  have one := cast_unitsPerOne_pos
  have error := rounds.error
  generalize (unitsPerOne : ℚ) = unit at many one error
  have positive : 0 < exact := pos_of_mul_pos_left (lt_of_lt_of_le (by positivity) many) one.le
  have half : 1 / (2 * unit) ≤ exact / 2 ^ 43 := by
    rw [div_le_div_iff₀ (by positivity) (by positivity)]
    linarith
  rw [abs_of_pos positive, abs_le] at error
  norm_num at half error
  refine ⟨rounds.isFinite, ?_, ?_⟩
  · norm_num [slack]
    linarith
  · norm_num [slack]
    linarith

/-- One more rounding of a number that roundings have taken away from another one. -/
theorem Rounds.isNear (rounds : double.Rounds rounded) (le : rounded ≤ exact * slack ^ roundings)
    (ge : exact ≤ rounded * slack ^ roundings) (few : roundings ≤ 1000)
    (many : 2 ^ 43 ≤ exact * unitsPerOne) : double.IsNear exact (roundings + 1) := by
  have one := cast_unitsPerOne_pos
  have power := slack_pow_pos roundings
  have powerLe := slack_pow_le few
  have near : double.IsNear rounded 1 := by
    apply rounds.isNear_one
    have positive : 0 < rounded * unitsPerOne := by
      have positive : 0 < exact := pos_of_mul_pos_left (lt_of_lt_of_le (by positivity) many) one.le
      exact mul_pos (pos_of_mul_pos_left (positive.trans_le ge) power.le) one
    have least := mul_le_mul_of_nonneg_right ge one.le
    have most := mul_le_mul_of_nonneg_left powerLe positive.le
    linarith
  refine ⟨near.isFinite, ?_, ?_⟩
  · calc double.number ≤ rounded * slack ^ 1 := near.le
      _ ≤ exact * slack ^ roundings * slack ^ 1 :=
          mul_le_mul_of_nonneg_right le (slack_pow_pos 1).le
      _ = exact * slack ^ (roundings + 1) := by rw [pow_add, mul_assoc]
  · calc exact ≤ rounded * slack ^ roundings := ge
      _ ≤ double.number * slack ^ 1 * slack ^ roundings :=
          mul_le_mul_of_nonneg_right near.ge power.le
      _ = double.number * slack ^ (roundings + 1) := by rw [pow_add, mul_assoc, mul_comm (_ ^ 1)]

theorem IsNear.times (leftNear : left.IsNear leftExact leftRoundings)
    (rightNear : right.IsNear rightExact rightRoundings) (leftLarge : 1 ≤ leftExact)
    (rightLarge : 1 ≤ rightExact) {exponent : ℕ} (small : leftExact * rightExact ≤ 10 ^ exponent)
    (reached : exponent ≤ 308) (few : leftRoundings + rightRoundings ≤ 1000) :
    (left.times right).IsNear (leftExact * rightExact) (leftRoundings + rightRoundings + 1) := by
  have leftPos := leftNear.pos (by linarith)
  have rightPos := rightNear.pos (by linarith)
  have exactPos : 0 < leftExact * rightExact := by positivity
  have le : left.number * right.number ≤
      leftExact * rightExact * slack ^ (leftRoundings + rightRoundings) := by
    rw [pow_add, mul_mul_mul_comm]
    exact mul_le_mul leftNear.le rightNear.le rightPos.le (leftPos.le.trans leftNear.le)
  have ge : leftExact * rightExact ≤
      left.number * right.number * slack ^ (leftRoundings + rightRoundings) := by
    rw [pow_add, mul_mul_mul_comm]
    exact mul_le_mul leftNear.ge rightNear.ge (by linarith) (by linarith [leftNear.ge])
  have bounded : |left.number * right.number| ≤ limit := by
    rw [abs_of_pos (mul_pos leftPos rightPos)]
    have power := mul_le_mul_of_nonneg_left (slack_pow_le few) exactPos.le
    linarith [le_limit reached]
  apply (rounds_times leftNear.isFinite rightNear.isFinite bounded).isNear le ge few
  have large : 1 ≤ leftExact * rightExact := one_le_mul_of_one_le_of_one_le leftLarge rightLarge
  exact le_unitsPerOne.trans (le_mul_of_one_le_left (Nat.cast_nonneg _) large)

theorem IsNear.dividedBy (leftNear : left.IsNear leftExact leftRoundings)
    (rightNear : right.IsNear rightExact rightRoundings) (leftPositive : 0 < leftExact)
    (rightPositive : 0 < rightExact) {exponent : ℕ} (small : leftExact / rightExact ≤ 10 ^ exponent)
    (reached : exponent ≤ 308) (many : 2 ^ 43 ≤ leftExact / rightExact * unitsPerOne)
    (few : leftRoundings + rightRoundings ≤ 1000) :
    (left.dividedBy right).IsNear (leftExact / rightExact) (leftRoundings + rightRoundings + 1) := by
  have leftPos := leftNear.pos leftPositive
  have rightPos := rightNear.pos rightPositive
  have exactPos : 0 < leftExact / rightExact := div_pos leftPositive rightPositive
  have le : left.number / right.number ≤
      leftExact / rightExact * slack ^ (leftRoundings + rightRoundings) := by
    rw [div_mul_eq_mul_div, div_le_div_iff₀ rightPos rightPositive, pow_add]
    calc left.number * rightExact
        ≤ leftExact * slack ^ leftRoundings * (right.number * slack ^ rightRoundings) :=
          mul_le_mul leftNear.le rightNear.ge rightPositive.le (leftPos.le.trans leftNear.le)
      _ = leftExact * (slack ^ leftRoundings * slack ^ rightRoundings) * right.number := by ring
  have ge : leftExact / rightExact ≤
      left.number / right.number * slack ^ (leftRoundings + rightRoundings) := by
    rw [div_mul_eq_mul_div, div_le_div_iff₀ rightPositive rightPos, pow_add]
    calc leftExact * right.number
        ≤ left.number * slack ^ leftRoundings * (rightExact * slack ^ rightRoundings) :=
          mul_le_mul leftNear.ge rightNear.le rightPos.le (leftPositive.le.trans leftNear.ge)
      _ = left.number * (slack ^ leftRoundings * slack ^ rightRoundings) * rightExact := by ring
  have bounded : |left.number / right.number| ≤ limit := by
    rw [abs_of_pos (div_pos leftPos rightPos)]
    have power := mul_le_mul_of_nonneg_left (slack_pow_le few) exactPos.le
    linarith [le_limit reached]
  have rounds := rounds_dividedBy leftNear.isFinite rightNear.isFinite rightPos.ne' bounded
  exact rounds.isNear le ge few many

theorem ofNat_isNear {value : ℕ} (positive : 0 < value) (small : value ≤ 10 ^ 15) :
    (ofNat value).IsNear value 1 := by
  have large : (1 : ℚ) ≤ value := Nat.one_le_cast.mpr positive
  have cast : (value : ℚ) ≤ 10 ^ 15 := by exact_mod_cast small
  have bounded : (value / (1 : ℕ) : ℚ) ≤ limit := by
    have reached : (3 / 2 * 10 ^ 15 : ℚ) ≤ limit := le_limit (by decide)
    rw [Nat.cast_one, div_one]
    linarith
  have rounds := rounds_ofQuotient Nat.one_pos bounded false
  rw [Nat.cast_one, div_one] at rounds
  have units := le_unitsPerOne
  apply Rounds.isNear_one rounds
  generalize (unitsPerOne : ℚ) = unit at units ⊢
  have scaled := mul_le_mul_of_nonneg_right large (by linarith : 0 ≤ unit)
  norm_num at units ⊢
  linarith

end Near

/--
A power by repeated squaring is near the exact one. Every step rounds once or twice, and doubles what
the base is off by; but it also halves the exponent.
-/
theorem powerFrom_isNear (exponent : ℕ) {accumulated base : Double} {exact baseExact : ℚ}
    {roundings baseRoundings : ℕ} (near : accumulated.IsNear exact roundings)
    (baseNear : base.IsNear baseExact baseRoundings) (large : 1 ≤ exact) (baseLarge : 1 ≤ baseExact)
    {limit : ℕ} (reached : limit ≤ 308) (small : exact * baseExact ^ exponent ≤ 10 ^ limit)
    (few : roundings + exponent * (baseRoundings + 2) ≤ 1000) :
    (powerFrom accumulated base exponent).IsNear (exact * baseExact ^ exponent)
      (roundings + exponent * (baseRoundings + 2)) := by
  induction exponent using Nat.strong_induction_on generalizing accumulated base exact baseExact
    roundings baseRoundings with
  | _ exponent inductionHypothesis =>
      -- A turn adds the error of the base for an odd exponent, and then doubles it; what is left of
      -- the exponent counts half as much.
      have whole := Nat.div_add_mod exponent 2
      have parity := Nat.mod_two_eq_zero_or_one exponent
      rw [powerFrom]
      generalize exponent / 2 = half at whole ⊢
      generalize exponent % 2 = rest at whole parity ⊢
      have exactWhole : exact * baseExact ^ exponent =
          exact * baseExact ^ rest * (baseExact * baseExact) ^ half := by
        rw [← pow_two, ← pow_mul, mul_assoc, ← pow_add, add_comm, whole]
      have count : roundings + rest * (baseRoundings + 1) +
          half * (baseRoundings + baseRoundings + 1 + 2) ≤
            roundings + exponent * (baseRoundings + 2) := by
        rw [← whole]
        linarith
      rw [exactWhole] at small ⊢
      have oddLarge : 1 ≤ exact * baseExact ^ rest :=
        one_le_mul_of_one_le_of_one_le large (one_le_pow₀ baseLarge)
      have squareLarge : 1 ≤ baseExact * baseExact :=
        one_le_mul_of_one_le_of_one_le baseLarge baseLarge
      have oddNear : (if rest = 1 then accumulated.times base else accumulated).IsNear
          (exact * baseExact ^ rest) (roundings + rest * (baseRoundings + 1)) := by
        rcases parity with rfl | rfl
        · simpa using near
        · rw [pow_one] at small oddLarge ⊢
          have product : exact * baseExact ≤ 10 ^ limit :=
            (le_mul_of_one_le_right (by linarith) (one_le_pow₀ squareLarge)).trans small
          have both := near.times baseNear large baseLarge product reached (by omega)
          simpa [add_assoc] using both
      split
      · next ended =>
          subst ended
          rw [pow_zero, mul_one]
          exact oddNear.mono (by linarith) (by linarith)
      · next several =>
          have square : baseExact * baseExact ≤ 10 ^ limit := by
            calc baseExact * baseExact
                ≤ (baseExact * baseExact) ^ half := le_self_pow₀ squareLarge several
              _ ≤ _ := le_mul_of_one_le_left (by positivity) oddLarge
              _ ≤ 10 ^ limit := small
          have twice : baseRoundings + baseRoundings ≤ 1000 := by
            have least := Nat.mul_le_mul_right (baseRoundings + baseRoundings + 1 + 2)
              (Nat.one_le_iff_ne_zero.mpr several)
            omega
          have squareNear := baseNear.times baseNear baseLarge baseLarge square reached twice
          have powerNear := inductionHypothesis half (by omega) oddNear squareNear oddLarge
            squareLarge small (count.trans few)
          exact powerNear.mono (by positivity) count

/-- Even the least of the powers of ten has many units. -/
theorem le_unitsPerOne_div {exponent : ℕ} (reached : exponent ≤ 308) :
    (2 ^ 43 : ℚ) ≤ 1 / 10 ^ exponent * unitsPerOne := by
  have exact : ∀ exponent ≤ 308, 2 ^ 43 * 10 ^ exponent ≤ unitsPerOne := by
    decide +kernel
  have cast := Nat.cast_le (α := ℚ).mpr (exact exponent reached)
  rw [Nat.cast_mul, Nat.cast_pow, Nat.cast_pow] at cast
  rw [one_div_mul_eq_div, le_div_iff₀ (by positivity)]
  exact cast

theorem powerFrom_ten_isNear {exponent : ℕ} (reached : exponent ≤ 308) :
    (powerFrom (ofNat 1) (ofNat 10) exponent).IsNear (10 ^ exponent) 925 := by
  have oneNear : (ofNat 1).IsNear (1 : ℕ) 1 := ofNat_isNear (by decide) (by norm_num)
  have tenNear : (ofNat 10).IsNear (10 : ℕ) 1 := ofNat_isNear (by decide) (by norm_num)
  have near := powerFrom_isNear exponent oneNear tenNear (by simp) (by norm_num) reached (by simp)
    (by omega)
  rw [Nat.cast_one, one_mul, Nat.cast_ofNat] at near
  exact near.mono (by positivity) (by omega)

/-- The powers of ten that have a double are near it. -/
theorem powerOfTen_isNear {exponent : ℤ} (least : -308 ≤ exponent) (greatest : exponent ≤ 308) :
    (powerOfTen exponent).IsNear (10 ^ exponent) 927 := by
  unfold powerOfTen
  have power := powerFrom_ten_isNear (show exponent.natAbs ≤ 308 by omega)
  split
  · next negative =>
      have inverse : (10 : ℚ) ^ exponent = 1 / 10 ^ exponent.natAbs := by
        have opposite : exponent = -(exponent.natAbs : ℤ) := by omega
        nth_rewrite 1 [opposite]
        rw [zpow_neg, zpow_natCast, one_div]
      have one : (1 : ℚ) ≤ 10 ^ exponent.natAbs := one_le_pow₀ (by norm_num)
      have bounded : 1 / (10 : ℚ) ^ exponent.natAbs ≤ 10 ^ 0 := by
        rw [pow_zero, div_le_one (by positivity)]
        exact one
      have many := le_unitsPerOne_div (show exponent.natAbs ≤ 308 by omega)
      have oneNear : (ofNat 1).IsNear (1 : ℕ) 1 := ofNat_isNear (by decide) (by norm_num)
      rw [Nat.cast_one] at oneNear
      rw [inverse]
      exact oneNear.dividedBy power one_pos (by positivity) bounded (by decide) many (by decide)
  · next positive =>
      have same : (10 : ℚ) ^ exponent = 10 ^ exponent.natAbs := by
        have own : exponent = (exponent.natAbs : ℤ) := by omega
        nth_rewrite 1 [own]
        rw [zpow_natCast]
      rw [same]
      exact power.mono (by positivity) (by decide)

/-- Powers of ten with an exponent too low for their reciprocal count as zero. -/
theorem powerOfTen_eq_zero {exponent : ℤ} (least : -324 ≤ exponent) (less : exponent < -308) :
    powerOfTen exponent = zero := by
  have beyond : ∀ more < 16, powerFrom (ofNat 1) (ofNat 10) (309 + more) = infinite false := by
    decide +kernel
  have power := beyond (exponent.natAbs - 309) (by omega)
  have size : 309 + (exponent.natAbs - 309) = exponent.natAbs := by omega
  rw [size] at power
  have negative : exponent < 0 := by omega
  have quotient : (ofNat 1).dividedBy (infinite false) = zero := by
    decide +kernel
  simp only [powerOfTen, power, if_pos negative, quotient]

end Double

end LocalizedText
