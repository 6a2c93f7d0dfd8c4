import LocalizedText.Proofs.Number.Mantissa
import LocalizedText.Proofs.Number.Plan

/-!
# When a number has a text

Rounding to significant digits is the only step of formatting that need not come to an end. It is
taken by all three forms when bounds on significant digits are given, and by the compact form when
no bounds are given at all. What is rounded there is a quotient in the compact and the scientific
form; it has a digit wherever the number has one, except for the least doubles in the scientific
form.
-/

namespace LocalizedText

/-- Bounds on significant digits are given. -/
def NumberOptions.BoundsSignificant (options : NumberOptions) : Prop :=
  options.minimumSignificant.isSome = true ∨ options.maximumSignificant.isSome = true

theorem NumberOptions.hasNoDigitBounds_of_boundsSignificant (options : NumberOptions)
    (bounds : options.BoundsSignificant) : options.hasNoDigitBounds = false := by
  simp only [BoundsSignificant, Option.isSome_iff_exists] at bounds
  rcases bounds with ⟨bound, isBound⟩ | ⟨bound, isBound⟩
  · simp [hasNoDigitBounds, isBound]
  · simp [hasNoDigitBounds, isBound]

namespace NumberPlan

variable {locale : String} {options : NumberOptions} {plan : NumberPlan} {value : Double}
  {magnitude : Magnitude} {numeral : Numeral} {minimum maximum : ℕ}

section Rounding

/-- Bounds on significant digits are accepted only in order, and only from one to the greatest. -/
theorem resolveSignificant_eq_ok {minimum maximum : Option UInt8} {rounding : NumberRounding}
    (resolved : resolveSignificant minimum maximum = .ok rounding) :
    ∃ least greatest, rounding = .significant least greatest ∧ 1 ≤ least ∧ least ≤ greatest ∧
      greatest ≤ maxSignificant := by
  simp only [resolveSignificant] at resolved
  split at resolved
  · cases resolved
  · cases resolved
    exact ⟨_, _, rfl, by omega, by omega, by omega⟩

/-- The rounding of a plan, by the bounds that its options give. -/
theorem IsResolved.rounding_cases (resolved : plan.IsResolved locale options) :
    (options.BoundsSignificant ∧
        ∃ minimum maximum, plan.rounding = .significant minimum maximum ∧ 1 ≤ minimum) ∨
      (¬options.BoundsSignificant ∧ (options.form = .compact ∧ options.hasNoDigitBounds = true) ∧
        plan.rounding = .compactAutomatic) ∨
      (¬options.BoundsSignificant ∧ ¬(options.form = .compact ∧ options.hasNoDigitBounds = true) ∧
        ∃ minimum maximum, plan.rounding = .fraction minimum maximum) := by
  rcases resolved.rounding with ⟨rounding, rounded, isRounding⟩
  unfold resolveRounding at rounded
  split at rounded
  · next given =>
      left
      rcases resolveSignificant_eq_ok rounded with ⟨minimum, maximum, rfl, least, -, -⟩
      have bounds : options.BoundsSignificant := by
        simpa [NumberOptions.BoundsSignificant] using given
      refine ⟨bounds, minimum, maximum, ?_, least⟩
      simp [isRounding, roundingFor, options.hasNoDigitBounds_of_boundsSignificant bounds]
  · next notGiven =>
      right
      have noBounds : ¬options.BoundsSignificant := by
        simpa [NumberOptions.BoundsSignificant] using notGiven
      have fraction := (resolveFraction_eq_ok rounded).1
      rw [isRounding, roundingFor, fraction]
      cases form : options.form <;> cases bounds : options.hasNoDigitBounds <;> simp [noBounds]

theorem isSome_round?_of_fraction (rounding : plan.rounding = .fraction minimum maximum)
    (value : Double) : (plan.round? value).isSome = true := by
  simp [round?, rounding]

theorem isSome_round?_of_hasDigit (hasDigit : value.HasDigit) :
    (plan.round? value).isSome = true := by
  unfold round?
  split
  · rfl
  · simp [Numeral.significant?_of_hasDigit hasDigit]
  · split
    · rfl
    · simp [Numeral.significant?_of_hasDigit hasDigit]

theorem exists_round? (plan : NumberPlan) (positive : 0 < magnitude.units) :
    ∃ numeral, plan.round? (.finite false magnitude) = some numeral := by
  rw [← Option.isSome_iff_exists]
  exact isSome_round?_of_hasDigit (.finite positive.ne')

theorem round?_significant (rounding : plan.rounding = .significant minimum maximum)
    (least : 1 ≤ minimum) (noDigit : ¬value.HasDigit) : plan.round? value = none := by
  have none : Numeral.significant? value minimum maximum = none :=
    Numeral.significant?_eq_none_iff.mpr ⟨by omega, noDigit⟩
  simp [round?, rounding, none]

theorem round?_automatic_zero (rounding : plan.rounding = .compactAutomatic)
    (zero : magnitude.units = 0) : plan.round? (.finite false magnitude) = none := by
  have below : (Double.finite false magnitude).atLeast 100 = false := by
    apply Double.atLeast_of_value_le _ (by decide)
    rw [Double.value_eq_zero zero]
    exact zero_le_two
  simp [round?, rounding, below, Numeral.significant?, zero]

theorem isSome_round?_automatic_infinite (rounding : plan.rounding = .compactAutomatic) :
    (plan.round? (.infinite false)).isSome = true := by
  simp [round?, rounding, Double.atLeast]

/-- The plan does not round to fraction digits. -/
def CountsDigits (plan : NumberPlan) : Prop :=
  ∀ minimum maximum, plan.rounding ≠ .fraction minimum maximum

/-- A number up to two is never rounded to ten, unless it is rounded to fraction digits. -/
theorem atLeast_of_round? (small : magnitude.value ≤ 2)
    (counts : plan.CountsDigits)
    (found : plan.round? (.finite false magnitude) = some numeral) {bound : ℕ}
    (several : 10 ≤ bound) : numeral.atLeast bound = false := by
  have number : (Double.finite false magnitude).number ≤ 2 := by
    rw [Double.number_finite]
    exact small
  have below := Double.atLeast_of_value_le small (show 2 < 100 by decide)
  cases rounding : plan.rounding with
  | fraction minimum maximum => exact absurd rounding (counts minimum maximum)
  | significant minimum maximum =>
      simp only [round?, rounding, Option.map_eq_some_iff] at found
      rcases found with ⟨rounded, isRounded, rfl⟩
      exact Numeral.atLeast_significant? rfl number isRounded _ several
  | compactAutomatic =>
      simp only [round?, rounding, below, reduceCtorEq, Bool.false_eq_true, or_self, if_false,
        Option.map_eq_some_iff] at found
      rcases found with ⟨rounded, isRounded, rfl⟩
      exact Numeral.atLeast_significant? rfl number isRounded _ several

end Rounding

section Compact

variable {words : CompactWords} {remaining : ℕ}

/-- The quotient of a number by so many powers of a thousand. -/
def compactQuotient (value : Double) (tier : ℕ) : Double :=
  value.dividedBy (Double.ofNat (1000 ^ tier))

/-- The compact form comes to an end when all that it may have to round can be rounded. -/
theorem isSome_compactFrom? (own : (plan.round? value).isSome = true)
    (quotients : ∀ tier ≤ 4, (plan.round? (compactQuotient value tier)).isSome = true) :
    (plan.compactFrom? words value remaining).isSome = true := by
  fun_induction compactFrom? plan words value remaining with
  | case1 remaining tier noWord => simpa using own
  | case2 remaining tier word isWord noText =>
      have quotient := quotients tier (Nat.sub_le 4 remaining)
      rw [compactQuotient, noText] at quotient
      exact quotient
  | case3 => rfl
  | case4 word numeral remaining carried tier isWord rounded inductionHypothesis =>
      exact inductionHypothesis
  | case5 => rfl

theorem compactFrom?_eq_none (own : plan.round? value = none)
    (quotients : ∀ tier ≤ 4, plan.round? (compactQuotient value tier) = none) :
    plan.compactFrom? words value remaining = none := by
  have quotient := quotients (4 - remaining) (by omega)
  unfold compactFrom?
  unfold compactQuotient at quotient
  simp only [own, quotient]
  split <;> rfl

/-- A number up to two is in the lowest tier, and stays there. -/
theorem isSome_compactFrom?_of_small (positive : 0 < magnitude.units) (small : magnitude.value ≤ 2)
    (counts : plan.CountsDigits) :
    (plan.compactFrom? words (.finite false magnitude) 4).isSome = true := by
  rcases plan.exists_round? positive with ⟨numeral, rounded⟩
  have below := atLeast_of_round? small counts rounded (show 10 ≤ 1000 by decide)
  simp [compactFrom?, wordOfTier?, Double.dividedBy_one, rounded, below]

theorem compactTier_of_small (small : magnitude.value ≤ 2) :
    compactTier (.finite false magnitude) = 0 := by
  have below := Double.atLeast_of_value_le small (show 2 < 1000 ^ 1 by decide)
  simp [compactTier, List.range_succ, below]

/-- Quotients of a number that is not small have a digit. -/
theorem hasDigit_compactQuotient (large : 1 ≤ magnitude.value) {tier : ℕ} (least : tier ≤ 4) :
    (compactQuotient (.finite false magnitude) tier).HasDigit := by
  unfold compactQuotient
  cases tier with
  | zero =>
      rw [pow_zero, Double.dividedBy_one]
      apply Double.HasDigit.finite
      intro zero
      rw [Double.value_eq_zero zero] at large
      norm_num at large
  | succ tier =>
      have most : 1000 ^ (tier + 1) ≤ 10 ^ 12 := by
        apply (Nat.pow_le_pow_right (by decide) least).trans
        norm_num
      have fewest : 1000 ≤ 1000 ^ (tier + 1) := Nat.le_self_pow (by omega) 1000
      rcases Double.exists_quotient large fewest most with ⟨quotient, isQuotient, positive⟩
      rw [isQuotient]
      exact .finite positive.ne'

theorem isSome_compact?_of_hasDigit (positive : 0 < magnitude.units)
    (counts : plan.CountsDigits) :
    (plan.compact? (.finite false magnitude)).isSome = true := by
  have hasDigit : (Double.finite false magnitude).HasDigit := .finite positive.ne'
  have own := plan.isSome_round?_of_hasDigit hasDigit
  cases isWords : plan.words with
  | none => simpa [compact?, isWords] using own
  | some words =>
      simp only [compact?, isWords]
      -- The quotients of a small number may vanish, but none of them is needed.
      rcases le_total magnitude.value 2 with small | large
      · rw [compactTier_of_small small]
        exact isSome_compactFrom?_of_small positive small counts
      · apply isSome_compactFrom? own
        intro tier least
        exact plan.isSome_round?_of_hasDigit (hasDigit_compactQuotient (by linarith) least)

theorem isSome_compact? (own : (plan.round? value).isSome = true)
    (quotients : ∀ tier ≤ 4, (plan.round? (compactQuotient value tier)).isSome = true) :
    (plan.compact? value).isSome = true := by
  cases isWords : plan.words with
  | none => simpa [compact?, isWords] using own
  | some words =>
      simp only [compact?, isWords]
      exact isSome_compactFrom? own quotients

theorem compact?_eq_none (own : plan.round? value = none)
    (quotients : ∀ tier ≤ 4, plan.round? (compactQuotient value tier) = none) :
    plan.compact? value = none := by
  cases isWords : plan.words with
  | none => simp [compact?, isWords, own]
  | some words =>
      simp only [compact?, isWords]
      exact compactFrom?_eq_none own quotients

theorem exists_thousands {tier : ℕ} (least : tier ≤ 4) :
    ∃ power : Magnitude, Double.ofNat (1000 ^ tier) = .finite false power ∧ 0 < power.units := by
  apply Double.exists_ofNat (Nat.pow_pos (by decide))
  apply (Nat.pow_le_pow_right (by decide) least).trans
  norm_num

theorem compactQuotient_zero (zero : magnitude.units = 0) {tier : ℕ} (least : tier ≤ 4) :
    compactQuotient (.finite false magnitude) tier = .finite false Magnitude.zero := by
  rcases exists_thousands least with ⟨power, isPower, positive⟩
  have nearest : Magnitude.nearestUnits? 0 power.units = some Magnitude.zero := by
    rw [Magnitude.nearestUnits?, Double.roundToBits_zero]
    exact Magnitude.ofUnits?_units Magnitude.zero
  rw [compactQuotient, isPower]
  simp only [Double.dividedBy, zero, Nat.zero_mul, if_neg positive.ne', nearest]
  rfl

theorem compactQuotient_infinite {tier : ℕ} (least : tier ≤ 4) :
    compactQuotient (.infinite false) tier = .infinite false := by
  rcases exists_thousands least with ⟨power, isPower, -⟩
  rw [compactQuotient, isPower]
  rfl

end Compact

section Scientific

theorem isSome_scientific? (total : ∀ value, (plan.round? value).isSome = true) (value : Double) :
    (plan.scientific? value).isSome = true := by
  simp only [Option.isSome_iff_exists] at total
  unfold scientific?
  split
  · rcases total Double.zero with ⟨numeral, rounded⟩
    simp [rounded]
  · rcases total (value.dividedBy (Double.powerOfTen value.decimalExponent)) with ⟨first, rounded⟩
    rcases total (value.dividedBy (Double.powerOfTen (value.decimalExponent + 1))) with
      ⟨second, again⟩
    simp only [rounded, again, Option.bind_eq_bind, Option.bind_some]
    split <;> rfl

theorem scientific?_infinite (rounding : plan.rounding = .significant minimum maximum)
    (least : 1 ≤ minimum) : plan.scientific? (.infinite false) = none := by
  have noDigit := Double.not_hasDigit_dividedBy (show ¬(Double.infinite false).HasDigit by rintro ⟨⟩)
    (Double.powerOfTen (Double.infinite false).decimalExponent)
  have none := round?_significant rounding least noDigit
  simp [scientific?, Double.isZero, none]

/-- Doubles below the least power of ten have no mantissa. -/
theorem not_hasDigit_mantissa (positive : 0 < magnitude.units)
    (less : (Double.finite false magnitude).decimalExponent < -308) :
    ¬((Double.finite false magnitude).dividedBy
      (Double.powerOfTen (Double.finite false magnitude).decimalExponent)).HasDigit := by
  have bounds := Double.decimalExponent_bounds positive false
  have quotient : (Double.finite false magnitude).dividedBy Double.zero = .infinite false := by
    have nothing : Magnitude.zero.units = 0 := rfl
    simp only [Double.dividedBy, Double.zero]
    rw [if_pos nothing, if_neg positive.ne']
    rfl
  rw [Double.powerOfTen_eq_zero bounds.2.1 less, quotient]
  rintro ⟨⟩

/-- The mantissa of a number that is not below the least power of ten can be rounded. -/
theorem isSome_scientific?_of_exponent (positive : 0 < magnitude.units)
    (least : -308 ≤ (Double.finite false magnitude).decimalExponent)
    (counts : plan.CountsDigits) :
    (plan.scientific? (.finite false magnitude)).isSome = true := by
  have bounds := Double.decimalExponent_bounds positive false
  have isZero : ¬(Double.finite false magnitude).isZero = true := by
    simpa [Double.isZero] using positive.ne'
  have small (isGreatest : (Double.finite false magnitude).decimalExponent = 308) :
      ((Double.finite false magnitude).dividedBy
        (Double.powerOfTen (Double.finite false magnitude).decimalExponent)).number ≤ 2 := by
    obtain ⟨greatest, own⟩ : ∃ greatest : ℕ, greatest = 308 := ⟨308, rfl⟩
    have exponent : (Double.finite false magnitude).decimalExponent = greatest := by omega
    rw [exponent]
    exact Double.number_mantissa_le positive own exponent
  have first := Double.exists_mantissa positive least bounds.1 le_rfl (by omega)
  have second (reached : (Double.finite false magnitude).decimalExponent + 1 ≤ 308) :
      ∃ mantissa : Magnitude, (Double.finite false magnitude).dividedBy
        (Double.powerOfTen ((Double.finite false magnitude).decimalExponent + 1)) =
          .finite false mantissa ∧ 0 < mantissa.units :=
    Double.exists_mantissa positive (by omega) reached (by omega) le_rfl
  unfold scientific?
  rw [if_neg isZero]
  generalize (Double.finite false magnitude).decimalExponent = exponent at *
  rcases first with ⟨mantissa, isMantissa, mantissaPos⟩
  rcases exists_round? plan mantissaPos with ⟨numeral, rounded⟩
  simp only [isMantissa, rounded, Option.bind_eq_bind, Option.bind_some]
  split
  · next carried =>
      -- Only the greatest doubles have no further power of ten, and their mantissas stay below two.
      have reached : exponent + 1 ≤ 308 := by
        by_contra greatest
        have below := small (by omega)
        rw [isMantissa, Double.number_finite] at below
        have notCarried := atLeast_of_round? below counts rounded le_rfl
        rw [notCarried] at carried
        cases carried
      rcases second reached with ⟨next, isNext, nextPos⟩
      rcases exists_round? plan nextPos with ⟨nextNumeral, nextRounded⟩
      simp [isNext, nextRounded]
  · rfl

theorem scientific?_eq_none_iff (rounding : plan.rounding = .significant minimum maximum)
    (least : 1 ≤ minimum) (magnitude : Magnitude) :
    plan.scientific? (.finite false magnitude) = none ↔
      magnitude.units = 0 ∨ (Double.finite false magnitude).decimalExponent < -308 := by
  by_cases zero : magnitude.units = 0
  · have none := round?_significant rounding least Double.not_hasDigit_zero
    simp [scientific?, Double.isZero, zero, none]
  · have positive : 0 < magnitude.units := Nat.pos_of_ne_zero zero
    by_cases less : (Double.finite false magnitude).decimalExponent < -308
    · have none := round?_significant rounding least (not_hasDigit_mantissa positive less)
      simp [scientific?, Double.isZero, zero, none, less]
    · have counts : plan.CountsDigits := by
        simp [CountsDigits, rounding]
      have some := isSome_scientific?_of_exponent positive (not_lt.mp less) counts
      rw [Option.isSome_iff_ne_none] at some
      tauto

end Scientific

/-- What is shown of a finite number: a magnitude, or infinity when a percentage is too large. -/
inductive IsShown : Double → Prop where
  | magnitude (magnitude : Magnitude) : IsShown (.finite false magnitude)
  | infinite : IsShown (.infinite false)

theorem isShown_hundredfold (magnitude : Magnitude) :
    IsShown ((Double.finite false magnitude).times (Double.ofNat 100)) := by
  rcases Double.exists_ofNat (show 0 < 100 by decide) (by norm_num) with ⟨hundred, isHundred, -⟩
  rw [isHundred, Double.times]
  cases Magnitude.nearestUnits? (magnitude.units * hundred.units) unitsPerOne with
  | none => exact .infinite
  | some product => exact .magnitude product

theorem isShown_scaled (plan : NumberPlan) (finite : value.isFinite = true) :
    IsShown (plan.scaled value) := by
  rcases Double.exists_finite finite with ⟨negative, magnitude, rfl⟩
  unfold scaled
  split
  · exact isShown_hundredfold magnitude
  · exact .magnitude magnitude

section Forms

theorem isSome_digits?_of_fraction (rounding : plan.rounding = .fraction minimum maximum)
    (value : Double) : (plan.digits? value).isSome = true := by
  have total := isSome_round?_of_fraction rounding
  unfold digits?
  cases plan.form with
  | standard => simpa using total value
  | compact => exact isSome_compact? (total value) fun tier _ => total _
  | scientific => exact isSome_scientific? total value

theorem digits?_of_significant (rounding : plan.rounding = .significant minimum maximum)
    (least : 1 ≤ minimum) (shown : IsShown value) :
    plan.digits? value = none ↔
      ¬value.HasDigit ∨ plan.form = .scientific ∧ value.decimalExponent < -308 := by
  have counts : plan.CountsDigits := by
    simp [CountsDigits, rounding]
  unfold digits?
  by_cases hasDigit : value.HasDigit
  · rcases shown with magnitude | _
    · have positive := Nat.pos_of_ne_zero (Double.hasDigit_finite_iff.mp hasDigit)
      cases form : plan.form with
      | standard =>
          rcases plan.exists_round? positive with ⟨numeral, rounded⟩
          simp [rounded, hasDigit]
      | compact =>
          have text := isSome_compact?_of_hasDigit positive counts
          rw [Option.isSome_iff_ne_none] at text
          simp [text, hasDigit]
      | scientific => simp [scientific?_eq_none_iff rounding least, positive.ne', hasDigit]
    · cases hasDigit
  · have noText := round?_significant rounding least hasDigit
    cases form : plan.form with
    | standard => simp [noText, hasDigit]
    | compact =>
        have quotients : ∀ tier ≤ 4, plan.round? (compactQuotient value tier) = none := by
          intro tier _
          exact round?_significant rounding least (Double.not_hasDigit_dividedBy hasDigit _)
        simp [compact?_eq_none noText quotients, hasDigit]
    | scientific =>
        rcases shown with magnitude | _
        · have zero := Double.units_of_not_hasDigit hasDigit
          simp [scientific?_eq_none_iff rounding least, zero, hasDigit]
        · simp [scientific?_infinite rounding least, hasDigit]

theorem compact?_of_automatic (rounding : plan.rounding = .compactAutomatic)
    (shown : IsShown value) : plan.compact? value = none ↔ value.isZero = true := by
  rcases shown with magnitude | _
  · by_cases zero : magnitude.units = 0
    · have quotients : ∀ tier ≤ 4,
          plan.round? (compactQuotient (.finite false magnitude) tier) = none := by
        intro tier least
        rw [compactQuotient_zero zero least]
        exact round?_automatic_zero rounding rfl
      simp [compact?_eq_none (round?_automatic_zero rounding zero) quotients, Double.isZero, zero]
    · have counts : plan.CountsDigits := by
        simp [CountsDigits, rounding]
      have text := isSome_compact?_of_hasDigit (Nat.pos_of_ne_zero zero) counts
      rw [Option.isSome_iff_ne_none] at text
      simp [text, Double.isZero, zero]
  · have own := isSome_round?_automatic_infinite rounding
    have text := isSome_compact? own fun tier least => by
      rw [compactQuotient_infinite least]
      exact own
    rw [Option.isSome_iff_ne_none] at text
    simp [text, Double.isZero]

end Forms

/-- A number has no digits to show exactly where its rounding does not end. -/
theorem IsResolved.digits?_eq_none_iff (resolved : plan.IsResolved locale options)
    (shown : IsShown value) :
    plan.digits? value = none ↔
      options.BoundsSignificant ∧
          (¬value.HasDigit ∨ options.form = .scientific ∧ value.decimalExponent < -308) ∨
        options.form = .compact ∧ options.hasNoDigitBounds = true ∧ value.isZero = true := by
  rw [← resolved.form]
  rcases resolved.rounding_cases with ⟨bounds, minimum, maximum, rounding, least⟩ |
    ⟨noBounds, ⟨compact, noDigits⟩, rounding⟩ | ⟨noBounds, other, minimum, maximum, rounding⟩
  · have own := options.hasNoDigitBounds_of_boundsSignificant bounds
    simp [digits?_of_significant rounding least shown, bounds, own]
  · rw [← resolved.form] at compact
    simp [digits?, compact, compact?_of_automatic rounding shown, noBounds, noDigits]
  · have text := isSome_digits?_of_fraction rounding value
    rw [Option.isSome_iff_ne_none] at text
    rw [← resolved.form] at other
    simp only [text, noBounds, false_and, false_or, false_iff]
    tauto

/--
The loops that adjust significant digits end for the doubles with a digit, and for the others only if
no digit is asked for. So a plan has a text for every finite number but for those where the digits
that are counted are missing: with bounds on significant digits zero, percentages beyond the doubles,
and in the scientific form numbers below the least power of ten; and without any bounds zero in the
compact form.
-/
theorem format?_eq_none_iff (resolved : resolve locale options = .ok plan)
    (finite : value.isFinite = true) :
    (∀ (number : Double) (minimum maximum : ℕ),
      (∃ last, Numeral.AdjustsTo minimum (Numeral.unadjusted number maximum) last) ↔
        number.HasDigit ∨ minimum = 0) ∧
      (plan.format? value = none ↔
        options.BoundsSignificant ∧
            (¬(plan.scaled value).HasDigit ∨
              options.form = .scientific ∧ (plan.scaled value).decimalExponent < -308) ∨
          options.form = .compact ∧ options.hasNoDigitBounds = true ∧
            (plan.scaled value).isZero = true) := by
  refine ⟨fun number minimum maximum => Numeral.exists_adjustsTo_iff, ?_⟩
  rw [← (isResolved_of_resolve resolved).digits?_eq_none_iff (plan.isShown_scaled finite), format?,
    if_pos finite, Option.map_eq_none_iff]

/-- Zero has no text in the compact form when nothing else is asked for. -/
theorem format?_eq_none_iff_compact :
    ∃ plan, resolve "en" { form := .compact } = .ok plan ∧ Double.zero.isFinite = true ∧
      plan.format? Double.zero = none := by
  have accepted : (resolve "en" { form := .compact }).toOption.isSome = true := by
    decide +kernel
  cases resolved : resolve "en" { form := .compact } with
  | error failure =>
      rw [resolved] at accepted
      cases accepted
  | ok plan =>
      refine ⟨plan, rfl, rfl, (format?_eq_none_iff resolved rfl).2.mpr (.inr ⟨rfl, rfl, ?_⟩)⟩
      have affix : plan.affix ≠ .percent := by
        rw [Ne, (isResolved_of_resolve resolved).affix_eq_percent_iff]
        decide
      unfold scaled
      split
      · contradiction
      · rfl

/--
With one significant digit asked for zero has no text in English: zeros are added to its digit
forever.
-/
theorem format?_zero_never_ends :
    ∃ plan, resolve "en" { minimumSignificant := some 1 } = .ok plan ∧
      plan.rounding = .significant 1 maxSignificant ∧ plan.format? Double.zero = none ∧
      ∀ last, ¬Numeral.AdjustsTo 1 (Numeral.unadjusted Double.zero maxSignificant) last := by
  have evaluated : (resolve "en" { minimumSignificant := some 1 }).toOption.any (fun plan =>
      plan.rounding = .significant 1 maxSignificant ∧ plan.format? Double.zero = none) = true := by
    decide +kernel
  cases resolved : resolve "en" { minimumSignificant := some 1 } with
  | error failure =>
      rw [resolved] at evaluated
      cases evaluated
  | ok plan =>
      rw [resolved] at evaluated
      have evaluated := of_decide_eq_true evaluated
      refine ⟨plan, rfl, evaluated.1, evaluated.2, ?_⟩
      intro last ends
      rcases Numeral.exists_adjustsTo_iff.mp ⟨last, ends⟩ with hasDigit | noneAsked
      · exact Double.not_hasDigit_zero hasDigit
      · cases noneAsked

end NumberPlan

end LocalizedText
