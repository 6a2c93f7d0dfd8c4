import LocalizedText.Proofs.Keyed
import LocalizedText.Proofs.Number.Totality

/-!
# Which options are accepted

A plan is made in four checks: of the style, of the words of the compact form, of the bounds on
digits, and of the number of integer digits. Each is passed exactly by the options that meet a
condition of their own. The usual bounds of a style never get in the way of a single given bound,
since they give way to it, so that the bounds of an accepted plan are in order.
-/

namespace LocalizedText

/-- The words of the compact form in a locale's data, by their length. -/
def LocaleData.words (data : LocaleData) : CompactDisplay → Option CompactWords
  | .short => data.shortWords
  | .long => data.longWords

namespace NumberOptions

/-- The currency is given by exactly three letters. -/
def NamesCurrency (options : NumberOptions) : Prop :=
  ∃ code ∈ options.currency, code.toList.length = 3 ∧
    ∀ letter ∈ code.toList, letter.isAlpha = true

/-- The unit is given, and is one of those that are known. -/
def NamesUnit (options : NumberOptions) : Prop :=
  ∃ unit ∈ options.unit, unit ∈ UnitNames.all.map Prod.fst

/-- The bounds on significant digits, with those that hold where none is given. -/
def significantBounds (options : NumberOptions) : ℕ × ℕ :=
  ((options.minimumSignificant.map UInt8.toNat).getD 1,
    (options.maximumSignificant.map UInt8.toNat).getD 21)

/-- The given bounds are in range and in order. Bounds on significant digits go before the others. -/
inductive HasOrderedBounds (options : NumberOptions) : Prop where
  | significant (given : options.BoundsSignificant) (positive : 1 ≤ options.significantBounds.1)
      (ordered : options.significantBounds.1 ≤ options.significantBounds.2)
      (most : options.significantBounds.2 ≤ 21)
  | fraction (notGiven : ¬options.BoundsSignificant)
      (minimum : ∀ bound ∈ options.minimumFraction, bound.toNat ≤ 20)
      (maximum : ∀ bound ∈ options.maximumFraction, bound.toNat ≤ 20)
      (ordered : ∀ least ∈ options.minimumFraction, ∀ most ∈ options.maximumFraction,
        least.toNat ≤ most.toNat)

/-- All that options need so that there is a plan for them in a locale. -/
structure IsAccepted (locale : String) (options : NumberOptions) : Prop where
  currency : options.style = .currency → options.NamesCurrency
  unit : options.style = .unit → options.NamesUnit
  longUnit : options.style = .unit → options.unitDisplay = .long →
    (LocaleData.ofLocale locale).language = "en"
  words : options.form = .compact →
    ((LocaleData.ofLocale locale).words options.compactDisplay).isSome = true
  bounds : options.HasOrderedBounds
  integer : ∀ bound ∈ options.minimumInteger, 1 ≤ bound.toNat ∧ bound.toNat ≤ 21

end NumberOptions

/-- The bounds of a rounding are in order, and in the range in which digits can be asked for. -/
def NumberRounding.IsConsistent : NumberRounding → Prop
  | .fraction minimum maximum => minimum ≤ maximum ∧ maximum ≤ 20
  | .significant minimum maximum => 1 ≤ minimum ∧ minimum ≤ maximum ∧ maximum ≤ 21
  | .compactAutomatic => True

namespace Currency

theorem isCode_iff {code : String} :
    isCode code = true ↔
      code.toList.length = 3 ∧ ∀ letter ∈ code.toList, letter.isAlpha = true := by
  simp [isCode]

end Currency

theorem UnitNames.exists_find?_iff {unit : String} :
    (∃ names, find? unit = some names) ↔ unit ∈ all.map Prod.fst := by
  rw [← Option.isSome_iff_exists, Option.isSome_iff_ne_none, find?, Ne, Keyed.lookup_eq_none_iff,
    not_not]

namespace NumberPlan

variable {locale : String} {data : LocaleData} {options : NumberOptions} {plan : NumberPlan}

section Checks

theorem exists_resolveStyle_iff :
    (∃ styled, resolveStyle locale data options = .ok styled) ↔
      (options.style = .currency → options.NamesCurrency) ∧
        (options.style = .unit → options.NamesUnit) ∧
        (options.style = .unit → options.unitDisplay = .long → data.language = "en") := by
  unfold resolveStyle
  cases style : options.style with
  | decimal => simp
  | percent => simp
  | currency =>
      cases given : options.currency with
      | none => simp [NumberOptions.NamesCurrency, given]
      | some code =>
          by_cases isCode : Currency.isCode code = true
          · have letters := Currency.isCode_iff.mp isCode
            simpa [NumberOptions.NamesCurrency, given, isCode] using letters
          · have letters := isCode
            rw [Currency.isCode_iff] at letters
            simpa [NumberOptions.NamesCurrency, given, isCode] using letters
  | unit =>
      cases given : options.unit with
      | none => simp [NumberOptions.NamesUnit, given]
      | some unit =>
          have known : (∃ names, UnitNames.find? unit = some names) ↔
              unit ∈ UnitNames.all.map Prod.fst := UnitNames.exists_find?_iff
          cases found : UnitNames.find? unit with
          | none =>
              rw [found] at known
              have unknown : ¬options.NamesUnit := by
                rintro ⟨other, isOther, listed⟩
                rw [given, Option.mem_some_iff] at isOther
                subst isOther
                simpa using known.mpr listed
              simp [unknown, found]
          | some names =>
              rw [found] at known
              have named : options.NamesUnit := ⟨unit, given, known.mp ⟨names, rfl⟩⟩
              by_cases long : options.unitDisplay = .long <;>
                by_cases english : data.language = "en" <;> simp [named, found, long, english]

theorem exists_resolveWords_iff :
    (∃ words, resolveWords locale data options = .ok words) ↔
      (options.form = .compact → (data.words options.compactDisplay).isSome = true) := by
  unfold resolveWords LocaleData.words
  cases options.form with
  | compact =>
      cases options.compactDisplay with
      | short => cases data.shortWords <;> simp
      | long => cases data.longWords <;> simp
  | standard => simp
  | scientific => simp

theorem exists_check_iff {minimum maximum : ℕ} :
    (∃ rounding, resolveFraction.check minimum maximum = .ok rounding) ↔
      minimum ≤ maximum ∧ maximum ≤ 20 := by
  simp only [check_eq_ok_iff, exists_eq_left]

/-- A single given bound only has to be in range, as the usual one gives way to it. -/
theorem exists_resolveFraction_iff {minimum maximum : Option UInt8} {usualMinimum usualMaximum : ℕ}
    (usual : usualMaximum ≤ 20) :
    (∃ rounding, resolveFraction minimum maximum usualMinimum usualMaximum = .ok rounding) ↔
      (∀ bound ∈ minimum, bound.toNat ≤ 20) ∧ (∀ bound ∈ maximum, bound.toNat ≤ 20) ∧
        ∀ least ∈ minimum, ∀ most ∈ maximum, least.toNat ≤ most.toNat := by
  unfold resolveFraction
  cases minimum with
  | none =>
      cases maximum with
      | none => simp
      | some most => simp [exists_check_iff]
  | some least =>
      cases maximum with
      | none => simp [exists_check_iff, usual]
      | some most =>
          simp only [Option.map_some, exists_check_iff, Option.mem_def, Option.some.injEq,
            forall_eq']
          omega

theorem exists_resolveSignificant_iff :
    (∃ rounding, resolveSignificant options.minimumSignificant options.maximumSignificant =
        .ok rounding) ↔
      1 ≤ options.significantBounds.1 ∧
        options.significantBounds.1 ≤ options.significantBounds.2 ∧
        options.significantBounds.2 ≤ 21 := by
  unfold resolveSignificant NumberOptions.significantBounds maxSignificant
  simp only
  split
  · simp only [reduceCtorEq, exists_false, false_iff]
    omega
  · simp only [Except.ok.injEq, exists_eq', true_iff]
    omega

theorem exists_resolveRounding_iff {usualMinimum usualMaximum : ℕ} (usual : usualMaximum ≤ 20) :
    (∃ rounding, resolveRounding options usualMinimum usualMaximum = .ok rounding) ↔
      options.HasOrderedBounds := by
  unfold resolveRounding
  split
  · next given =>
      have bounds : options.BoundsSignificant := by
        simpa [NumberOptions.BoundsSignificant] using given
      rw [exists_resolveSignificant_iff]
      constructor
      · rintro ⟨positive, ordered, most⟩
        exact .significant bounds positive ordered most
      · rintro (⟨_, positive, ordered, most⟩ | ⟨notGiven⟩)
        · exact ⟨positive, ordered, most⟩
        · exact absurd bounds notGiven
  · next given =>
      have noBounds : ¬options.BoundsSignificant := by
        simpa [NumberOptions.BoundsSignificant] using given
      rw [exists_resolveFraction_iff usual]
      constructor
      · rintro ⟨minimum, maximum, ordered⟩
        exact .fraction noBounds minimum maximum ordered
      · rintro (⟨bounds⟩ | ⟨_, minimum, maximum, ordered⟩)
        · exact absurd bounds noBounds
        · exact ⟨minimum, maximum, ordered⟩

theorem exists_resolveMinimumInteger_iff {minimum : Option UInt8} :
    (∃ filled, resolveMinimumInteger minimum = .ok filled) ↔
      ∀ bound ∈ minimum, 1 ≤ bound.toNat ∧ bound.toNat ≤ 21 := by
  unfold resolveMinimumInteger maxSignificant
  cases minimum with
  | none => simp
  | some bound =>
      simp only [Option.map_some, Option.mem_def, Option.some.injEq, forall_eq']
      split <;> simp_all

end Checks

/-- There is a plan exactly when all four checks are passed. -/
theorem exists_resolve_iff :
    (∃ plan, resolve locale options = .ok plan) ↔
      (∃ styled, resolveStyle locale (LocaleData.ofLocale locale) options = .ok styled) ∧
        (∃ words, resolveWords locale (LocaleData.ofLocale locale) options = .ok words) ∧
        (∃ rounding, resolveRounding options options.usualFraction.1 options.usualFraction.2 =
          .ok rounding) ∧
        ∃ filled, resolveMinimumInteger options.minimumInteger = .ok filled := by
  simp only [resolve, bind, Except.bind, pure, Except.pure]
  generalize LocaleData.ofLocale locale = data
  cases styled : resolveStyle locale data options with
  | error failure => simp
  | ok result =>
      rcases result with ⟨affix, usualMinimum, usualMaximum⟩
      rw [usualFraction_of_resolveStyle styled]
      cases resolveWords locale data options with
      | error failure => simp
      | ok words =>
          cases rounded : resolveRounding options usualMinimum usualMaximum with
          | error failure => simp [rounded]
          | ok rounding =>
              cases resolveMinimumInteger options.minimumInteger <;> simp [rounded]

theorem exists_resolve_iff_isAccepted :
    (∃ plan, resolve locale options = .ok plan) ↔ options.IsAccepted locale := by
  have usual := options.usualFraction_le
  rw [exists_resolve_iff, exists_resolveStyle_iff, exists_resolveWords_iff,
    exists_resolveRounding_iff (by omega), exists_resolveMinimumInteger_iff]
  constructor
  · rintro ⟨⟨currency, unit, longUnit⟩, words, bounds, integer⟩
    exact ⟨currency, unit, longUnit, words, bounds, integer⟩
  · rintro ⟨currency, unit, longUnit, words, bounds, integer⟩
    exact ⟨⟨currency, unit, longUnit⟩, words, bounds, integer⟩

section Consistency

theorem isConsistent_of_resolveFraction {minimum maximum : Option UInt8}
    {usualMinimum usualMaximum : ℕ} {rounding : NumberRounding}
    (ordered : usualMinimum ≤ usualMaximum) (usual : usualMaximum ≤ 20)
    (resolved : resolveFraction minimum maximum usualMinimum usualMaximum = .ok rounding) :
    rounding.IsConsistent := by
  have checked {least most : ℕ} (accepted : resolveFraction.check least most = .ok rounding) :
      rounding.IsConsistent := by
    rcases check_eq_ok_iff.mp accepted with ⟨rfl, bounds⟩
    exact bounds
  unfold resolveFraction at resolved
  split at resolved
  · cases resolved
    exact ⟨ordered, usual⟩
  · exact checked resolved
  · exact checked resolved
  · exact checked resolved

theorem isConsistent_of_resolveRounding {usualMinimum usualMaximum : ℕ} {rounding : NumberRounding}
    (ordered : usualMinimum ≤ usualMaximum) (usual : usualMaximum ≤ 20)
    (resolved : resolveRounding options usualMinimum usualMaximum = .ok rounding) :
    rounding.IsConsistent := by
  unfold resolveRounding at resolved
  split at resolved
  · rcases resolveSignificant_eq_ok resolved with ⟨least, most, rfl, positive, inOrder, bounded⟩
    exact ⟨positive, inOrder, bounded⟩
  · exact isConsistent_of_resolveFraction ordered usual resolved

/-- Also where the form replaces the rounding its bounds stay in order. -/
theorem IsResolved.isConsistent (resolved : plan.IsResolved locale options) :
    plan.rounding.IsConsistent := by
  rcases resolved.rounding with ⟨rounding, rounded, isRounding⟩
  have usual := options.usualFraction_le
  have own := isConsistent_of_resolveRounding usual.1 (by omega) rounded
  rw [isRounding, roundingFor]
  split
  · split
    · exact trivial
    · exact ⟨by omega, by omega⟩
    · exact own
  · exact own

end Consistency

/--
There is a plan exactly for the options whose style has what it needs, whose compact form has words,
and whose bounds on digits are in range and in order. The bounds that a plan rounds by are in order.
-/
theorem resolve_exactly_accepted (locale : String) (options : NumberOptions) :
    ((∃ plan, resolve locale options = .ok plan) ↔ options.IsAccepted locale) ∧
      ∀ plan, resolve locale options = .ok plan → plan.rounding.IsConsistent :=
  ⟨exists_resolve_iff_isAccepted, fun _ resolved => (isResolved_of_resolve resolved).isConsistent⟩

-- Euros have two fraction digits, and the upper bound gives way to a lower one beyond them.
example :
    let options : NumberOptions :=
      { style := .currency, currency := some "EUR", minimumFraction := some 5 }
    (resolve "de" options).toOption.map rounding = some (.fraction 5 5) := by
  decide +kernel

end NumberPlan

end LocalizedText
