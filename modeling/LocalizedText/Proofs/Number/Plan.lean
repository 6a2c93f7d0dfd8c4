import LocalizedText.Number.Plan

/-!
# What a resolved plan says

A plan that was made for a locale and options carries what each of the checks has settled. The
bounds on fraction digits are those of the options where they are given, and else the usual ones of
the style, moved only as far as the given one demands.
-/

namespace LocalizedText

theorem Currency.fractionDigits_le (code : String) : fractionDigits code ≤ 3 := by
  unfold fractionDigits
  split
  · omega
  · split <;> omega

/-- The usual bounds on fraction digits of the options' style. -/
def NumberOptions.usualFraction (options : NumberOptions) : Nat × Nat :=
  match options.style with
  | .decimal | .unit => (0, 3)
  | .percent => (0, 0)
  | .currency =>
      let digits := Currency.fractionDigits (Currency.capitalized (options.currency.getD ""))
      (digits, digits)

/-- The usual bounds are in order, and well in range. -/
theorem NumberOptions.usualFraction_le (options : NumberOptions) :
    options.usualFraction.1 ≤ options.usualFraction.2 ∧ options.usualFraction.2 ≤ 3 := by
  unfold usualFraction
  split
  · decide
  · decide
  · decide
  · exact ⟨Nat.le_refl _, Currency.fractionDigits_le _⟩

/-- The bounds on fraction digits that options ask for: at least the first, at most the second. -/
def NumberOptions.fractionBounds (options : NumberOptions) : Nat × Nat :=
  let (usualMinimum, usualMaximum) := options.usualFraction
  match options.minimumFraction.map UInt8.toNat, options.maximumFraction.map UInt8.toNat with
  | none, none => (usualMinimum, usualMaximum)
  | some minimum, none => (minimum, max usualMaximum minimum)
  | none, some maximum => (min usualMinimum maximum, maximum)
  | some minimum, some maximum => (minimum, maximum)

namespace NumberPlan

/-- The rounding of a form when no digits are bounded, and else the one that was asked for. -/
def roundingFor (options : NumberOptions) (rounding : NumberRounding) : NumberRounding :=
  if options.hasNoDigitBounds then
    match options.form with
    | .compact => .compactAutomatic
    | .scientific => .fraction 0 3
    | .standard => rounding
  else rounding

/-- A plan is what the checks of its options have settled. -/
structure IsResolved (locale : String) (options : NumberOptions) (plan : NumberPlan) : Prop where
  data : plan.data = LocaleData.ofLocale locale
  affix : resolveStyle locale plan.data options =
    .ok (plan.affix, options.usualFraction.1, options.usualFraction.2)
  words : resolveWords locale plan.data options = .ok plan.words
  rounding : ∃ rounding,
    resolveRounding options options.usualFraction.1 options.usualFraction.2 = .ok rounding ∧
      plan.rounding = roundingFor options rounding
  minimumInteger : resolveMinimumInteger options.minimumInteger = .ok plan.minimumInteger
  grouping : plan.grouping = options.grouping
  form : plan.form = options.form
  sign : plan.sign = options.signDisplay

variable {locale : String} {data : LocaleData} {options : NumberOptions} {plan : NumberPlan}

/-- Whether a plan can be made and has a property is found out by making it. -/
instance {holds : NumberPlan → Prop} [DecidablePred holds] :
    Decidable (∃ plan, resolve locale options = .ok plan ∧ holds plan) :=
  decidable_of_iff ((resolve locale options).toOption.any (holds ·) = true) (by
    cases resolve locale options <;> simp [Except.toOption])

/-- The style settles the usual bounds whatever the locale. -/
theorem usualFraction_of_resolveStyle {affix : NumberAffix} {usualMinimum usualMaximum : Nat}
    (styled : resolveStyle locale data options = .ok (affix, usualMinimum, usualMaximum)) :
    options.usualFraction = (usualMinimum, usualMaximum) := by
  unfold resolveStyle at styled
  unfold NumberOptions.usualFraction
  split at styled
  · cases styled
    simp [*]
  · cases styled
    simp [*]
  · split at styled
    · cases styled
    · split at styled
      · cases styled
        simp [*]
      · cases styled
  · split at styled
    · cases styled
    · split at styled
      · cases styled
      · split at styled
        · cases styled
        · cases styled
          simp [*]

theorem isResolved_of_resolve (resolved : resolve locale options = .ok plan) :
    plan.IsResolved locale options := by
  simp only [resolve, bind, Except.bind, pure, Except.pure] at resolved
  generalize isData : LocaleData.ofLocale locale = data at resolved
  split at resolved
  · cases resolved
  · next styled affix =>
      rcases styled with ⟨_, usualMinimum, usualMaximum⟩
      have usual := usualFraction_of_resolveStyle affix
      split at resolved
      · cases resolved
      · next words =>
          split at resolved
          · cases resolved
          · next rounding rounded =>
              split at resolved
              · cases resolved
              · next minimumInteger =>
                  cases resolved
                  refine ⟨isData.symm, ?_, words, ⟨rounding, ?_, rfl⟩, minimumInteger, rfl, rfl, rfl⟩
                  · rw [usual]
                    exact affix
                  · rw [usual]
                    exact rounded

/-- A percentage is written for the percent style, and for no other. -/
theorem IsResolved.affix_eq_percent_iff (resolved : plan.IsResolved locale options) :
    plan.affix = .percent ↔ options.style = .percent := by
  have affix := resolved.affix
  generalize plan.affix = written at affix ⊢
  generalize options.usualFraction.1 = usualMinimum at affix
  generalize options.usualFraction.2 = usualMaximum at affix
  unfold resolveStyle at affix
  split at affix
  · next style =>
      cases affix
      simp [style]
  · next style =>
      cases affix
      simp [style]
  · next style =>
      split at affix
      · cases affix
      · split at affix
        · cases affix
          simp [style]
        · cases affix
  · next style =>
      split at affix
      · cases affix
      · split at affix
        · cases affix
        · split at affix
          · cases affix
          · cases affix
            simp [style]

theorem IsResolved.minimumInteger_eq (resolved : plan.IsResolved locale options) :
    plan.minimumInteger = (options.minimumInteger.map UInt8.toNat).getD 1 := by
  have minimum := resolved.minimumInteger
  generalize plan.minimumInteger = filled at minimum ⊢
  unfold resolveMinimumInteger at minimum
  cases given : options.minimumInteger.map UInt8.toNat with
  | none =>
      rw [given] at minimum
      cases minimum
      rfl
  | some least =>
      rw [given] at minimum
      simp only at minimum
      split at minimum
      · cases minimum
        rfl
      · cases minimum

/-- Bounds on fraction digits are accepted as they are, in order and in range. -/
theorem check_eq_ok_iff {minimum maximum : Nat} {rounding : NumberRounding} :
    resolveFraction.check minimum maximum = .ok rounding ↔
      rounding = .fraction minimum maximum ∧ minimum ≤ maximum ∧ maximum ≤ 20 := by
  unfold resolveFraction.check maxFraction
  split
  · next outside =>
      simp only [reduceCtorEq, false_iff]
      omega
  · next inside =>
      rw [Except.ok.injEq, eq_comm, iff_self_and]
      omega

/-- Bounds on fraction digits are accepted only in order. -/
theorem resolveFraction_eq_ok {rounding : NumberRounding}
    (resolved : resolveFraction options.minimumFraction options.maximumFraction
      options.usualFraction.1 options.usualFraction.2 = .ok rounding) :
    rounding = .fraction options.fractionBounds.1 options.fractionBounds.2 ∧
      options.fractionBounds.1 ≤ options.fractionBounds.2 := by
  have checked {minimum maximum : Nat}
      (accepted : resolveFraction.check minimum maximum = .ok rounding) :
      rounding = .fraction minimum maximum ∧ minimum ≤ maximum :=
    (check_eq_ok_iff.mp accepted).imp_right And.left
  unfold resolveFraction at resolved
  unfold NumberOptions.fractionBounds
  generalize options.minimumFraction.map UInt8.toNat = minimum at resolved ⊢
  generalize options.maximumFraction.map UInt8.toNat = maximum at resolved ⊢
  cases minimum with
  | none =>
      cases maximum with
      | none =>
          cases resolved
          exact ⟨rfl, options.usualFraction_le.1⟩
      | some most => exact checked resolved
  | some least =>
      cases maximum with
      | none => exact checked resolved
      | some most => exact checked resolved

/-- Without bounds on significant digits the standard form rounds to fraction digits. -/
theorem IsResolved.rounding_fraction (resolved : plan.IsResolved locale options)
    (standard : options.form = .standard) (noMinimum : options.minimumSignificant = none)
    (noMaximum : options.maximumSignificant = none) :
    plan.rounding = .fraction options.fractionBounds.1 options.fractionBounds.2 ∧
      options.fractionBounds.1 ≤ options.fractionBounds.2 := by
  rcases resolved.rounding with ⟨rounding, rounded, isRounding⟩
  have own : plan.rounding = rounding := by
    rw [isRounding, roundingFor, standard]
    simp
  rw [own]
  apply resolveFraction_eq_ok
  simpa [resolveRounding, noMinimum, noMaximum] using rounded

end NumberPlan

end LocalizedText
