import LocalizedText.Number.Manual
import LocalizedText.Proofs.Number.Acceptance
import LocalizedText.Proofs.Number.Sign

/-!
# Plain decimals without locale data

Numbers are written manually where no plan can be made for a locale. For plain decimals the two ways
agree in English, so that nobody sees which of them was taken, with a single exception: negative zero
keeps its sign in a plan, and is not below zero.
-/

namespace LocalizedText

def Double.negativeZero : Double :=
  .finite true Magnitude.zero

theorem Double.isBelowZero_eq_isNegative {value : Double} (notZero : value ≠ negativeZero) :
    value.isBelowZero = value.isNegative := by
  cases value with
  | finite negative magnitude =>
      cases negative with
      | false => rfl
      | true =>
          have positive : magnitude.units ≠ 0 := by
            intro zero
            apply notZero
            cases magnitude
            simp only at zero
            subst zero
            rfl
          simpa [isBelowZero, isNegative] using positive
  | infinite negative => rfl
  | notANumber => rfl

/-- Options that ask for nothing but bounds on fraction digits. -/
structure NumberOptions.IsPlainDecimal (options : NumberOptions) : Prop where
  style : options.style = .decimal
  form : options.form = .standard
  sign : options.signDisplay = .auto
  grouping : options.grouping = true
  noMinimumInteger : options.minimumInteger = none
  noMinimumSignificant : options.minimumSignificant = none
  noMaximumSignificant : options.maximumSignificant = none
  minimum : ∀ bound ∈ options.minimumFraction, bound.toNat ≤ 20
  maximum : ∀ bound ∈ options.maximumFraction, bound.toNat ≤ 20
  ordered : ∀ least ∈ options.minimumFraction, ∀ most ∈ options.maximumFraction,
    least.toNat ≤ most.toNat

namespace NumberOptions.IsPlainDecimal

variable {options : NumberOptions}

theorem isAccepted (plain : options.IsPlainDecimal) (locale : String) :
    options.IsAccepted locale where
  currency style := by simp [plain.style] at style
  unit style := by simp [plain.style] at style
  longUnit style := by simp [plain.style] at style
  words form := by simp [plain.form] at form
  bounds := by
    apply HasOrderedBounds.fraction _ plain.minimum plain.maximum plain.ordered
    simp [BoundsSignificant, plain.noMinimumSignificant, plain.noMaximumSignificant]
  integer := by simp [plain.noMinimumInteger]

/-- A missing lower bound is zero, and a missing upper one three or the lower bound. -/
theorem fractionBounds_eq (plain : options.IsPlainDecimal) :
    options.fractionBounds =
      ((options.minimumFraction.map UInt8.toNat).getD 0,
        max ((options.maximumFraction.map UInt8.toNat).getD 3)
          ((options.minimumFraction.map UInt8.toNat).getD 0)) := by
  have ordered := plain.ordered
  unfold fractionBounds usualFraction
  rw [plain.style]
  cases minimum : options.minimumFraction with
  | none => cases options.maximumFraction <;> simp
  | some least =>
      cases maximum : options.maximumFraction with
      | none => simp
      | some most =>
          have inOrder := ordered least minimum most maximum
          simp [inOrder]

/-- A plain decimal is written manually in groups of digits, after a minus sign. -/
theorem format_finite (plain : options.IsPlainDecimal) (negative : Bool) (magnitude : Magnitude) :
    ManualNumber.format (.finite negative magnitude) options =
      (if (Double.finite negative magnitude).isBelowZero then "-" else "") ++
        ManualNumber.grouped (.finite false magnitude) options.fractionBounds.1
          options.fractionBounds.2 := by
  simp only [ManualNumber.format, Double.isFinite, if_true, plain.style, plain.form, reduceCtorEq,
    if_false, ManualNumber.sign, Double.abs, plain.fractionBounds_eq]

end NumberOptions.IsPlainDecimal

/-- A number rounded to fraction digits has an integer digit, and none has to be filled in. -/
theorem Numeral.padInteger_fixed (negative : Bool) (magnitude : Magnitude) (minimum maximum : ℕ) :
    (fixed (.finite negative magnitude) minimum maximum).padInteger 1 =
      fixed (.finite negative magnitude) minimum maximum := by
  have length := length_integer_ofScaled
    (roundQuotient (magnitude.units * 10 ^ maximum) unitsPerOne) maximum
  have enough : 1 - (fixed (.finite negative magnitude) minimum maximum).integer.length = 0 := by
    simp only [fixed, trimFraction, length]
    omega
  rw [padInteger, enough]
  rfl

namespace NumberPlan

variable {options : NumberOptions} {plan : NumberPlan}

theorem IsResolved.affix_eq_bare {locale : String} (resolved : plan.IsResolved locale options)
    (decimal : options.style = .decimal) : plan.affix = .bare := by
  have affix := resolved.affix
  simp only [resolveStyle, decimal, Except.ok.injEq, Prod.mk.injEq] at affix
  exact affix.1.symm

/-- With a plan for English a plain decimal is written in groups of digits, after a minus sign. -/
theorem IsResolved.format?_plain (resolved : plan.IsResolved "en" options)
    (plain : options.IsPlainDecimal) (negative : Bool) (magnitude : Magnitude) :
    plan.format? (.finite negative magnitude) =
      some ((if negative then "-" else "") ++
        ManualNumber.grouped (.finite false magnitude) options.fractionBounds.1
          options.fractionBounds.2) := by
  have affix := resolved.affix_eq_bare plain.style
  have english : plan.data = LocaleData.english := resolved.data
  have rounding := (resolved.rounding_fraction plain.form plain.noMinimumSignificant
    plain.noMaximumSignificant).1
  have integer : plan.minimumInteger = 1 := by
    rw [resolved.minimumInteger_eq, plain.noMinimumInteger]
    rfl
  apply (format?_eq_some_iff rfl).mpr
  refine ⟨{
    numeral := Numeral.fixed (.finite false magnitude) options.fractionBounds.1
      options.fractionBounds.2 }, ?_, ?_⟩
  · simp only [digits?, resolved.form, plain.form, scaled, affix, Double.abs, round?, rounding,
      integer, Numeral.padInteger_fixed, Option.map_some]
  · have sign : (Double.finite negative magnitude).isNegative = negative := rfl
    rw [sign]
    simp [unsigned, surroundings, affix, writeDigits, groupingFor, resolved.grouping,
      plain.grouping, resolved.form, plain.form, english, LocaleData.english, resolved.sign,
      plain.sign, signText, ManualNumber.grouped]

/--
For plain decimals there is a plan in English, and it writes every number as it is written without a
plan, except that negative zero has a sign.
-/
theorem exists_plan_eq_manual (plain : options.IsPlainDecimal) :
    ∃ plan, resolve "en" options = .ok plan ∧
      (∀ value ≠ Double.negativeZero,
        plan.format? value = some (ManualNumber.format value options)) ∧
      plan.format? .negativeZero = some ("-" ++ ManualNumber.format .negativeZero options) := by
  rcases exists_resolve_iff_isAccepted.mpr (plain.isAccepted "en") with ⟨plan, resolved⟩
  have written := (isResolved_of_resolve resolved).format?_plain plain
  refine ⟨plan, resolved, ?_, ?_⟩
  · intro value notZero
    cases value with
    | finite negative magnitude =>
        rw [written, plain.format_finite, Double.isBelowZero_eq_isNegative notZero]
        rfl
    | infinite negative => rfl
    | notANumber => rfl
  · rw [Double.negativeZero, written, plain.format_finite]
    simp [Double.isBelowZero, Magnitude.zero]

/-- A number just below zero that rounds to zero keeps its sign, with a plan and without one. -/
theorem exists_plan_eq_manual_small :
    let options : NumberOptions := { minimumFraction := some 5 }
    let value : Double := .finite true ⟨2 ^ 1054, by decide +kernel⟩
    options.IsPlainDecimal ∧ ∃ plan, resolve "en" options = .ok plan ∧
      plan.format? value = some "-0.00000" := by
  intro options value
  have plain : options.IsPlainDecimal :=
    ⟨rfl, rfl, rfl, rfl, rfl, rfl, rfl, by simp [options], by simp [options], by simp [options]⟩
  have manual : ManualNumber.format value options = "-0.00000" := by decide +kernel
  rcases exists_plan_eq_manual plain with ⟨plan, resolved, written, -⟩
  refine ⟨plain, plan, resolved, ?_⟩
  rw [← manual]
  exact written value (by decide +kernel)

end NumberPlan

end LocalizedText
