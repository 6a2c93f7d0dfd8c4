import LocalizedText.Proofs.Number.FixedPoint
import LocalizedText.Proofs.Number.Plan

/-!
# Numbers written in full

In the standard form a number is written with its integer digits, grouped or not, and its fraction
digits after the decimal separator. The two separators of a locale differ and are no digits, so that
the numeral can be read off the text again. What it denotes is the magnitude of the number, rounded
to as many fraction digits as the options and their style allow.
-/

namespace LocalizedText

theorem LocaleData.ofLocale_mem (tag : String) : ofLocale tag ∈ all := by
  unfold ofLocale
  cases found : LocaleData.all.find? (·.language == Locale.language tag) with
  | none => exact List.mem_cons_self
  | some data => exact List.mem_of_find?_eq_some found

/-- The separators in all data can be told from digits, and from each other. -/
theorem LocaleData.separators_of_mem : ∀ data ∈ all,
    data.groupSeparator.isDigit = false ∧ data.decimalSeparator.isDigit = false ∧
      data.decimalSeparator ≠ data.groupSeparator := by
  decide

/-- The separators of every locale can be told from digits, and from each other. -/
theorem LocaleData.separators_ofLocale (tag : String) :
    (ofLocale tag).groupSeparator.isDigit = false ∧
      (ofLocale tag).decimalSeparator.isDigit = false ∧
      (ofLocale tag).decimalSeparator ≠ (ofLocale tag).groupSeparator :=
  separators_of_mem _ (ofLocale_mem tag)

namespace Numeral

variable {separator decimal : Char} {digits : List Char} {numeral : Numeral}
  {grouping : Option (Char × Nat)} {kept : Char → Bool}

/-- Deleting the separators of groups gives back the digits. -/
theorem filter_insertSeparators (dropped : kept separator = false)
    (all : ∀ digit ∈ digits, kept digit = true) :
    (insertSeparators separator digits).filter kept = digits := by
  induction digits with
  | nil => rfl
  | cons digit rest inductionHypothesis =>
      have first := all digit List.mem_cons_self
      have others := inductionHypothesis fun digit member =>
        all digit (List.mem_cons_of_mem _ member)
      rw [insertSeparators]
      split <;> simp [first, dropped, others]

/-- Deleting separators from a written numeral leaves its digits, and the point if it is kept. -/
theorem filter_render_of_kept (all : ∀ digit ∈ numeral.integer ++ numeral.fraction, kept digit = true)
    (dropped : ∀ group ∈ grouping, kept group.1 = false) :
    (numeral.render grouping decimal).filter kept =
      numeral.integer ++
        if numeral.fraction.isEmpty then [] else [decimal].filter kept ++ numeral.fraction := by
  rw [List.forall_mem_append] at all
  rcases all with ⟨integerKept, fractionKept⟩
  have joined {integer : List Char} (filtered : integer.filter kept = numeral.integer) :
      (if numeral.fraction.isEmpty then integer
        else integer ++ decimal :: numeral.fraction).filter kept =
          numeral.integer ++
            if numeral.fraction.isEmpty then [] else [decimal].filter kept ++ numeral.fraction := by
    split
    · simpa using filtered
    · rw [List.filter_append, filtered, ← List.singleton_append, List.filter_append,
        List.filter_eq_self.mpr fractionKept]
  have whole := List.filter_eq_self.mpr integerKept
  cases grouping with
  | none => exact joined whole
  | some group =>
      apply joined
      simp only [groupInteger]
      split
      · exact whole
      · exact filter_insertSeparators (dropped group rfl) integerKept

/-- Deleting the group separators of a written numeral leaves its digits and the point. -/
theorem filter_render (notDigit : separator.isDigit = false) (apart : decimal ≠ separator)
    (isDigit : ∀ digit ∈ numeral.integer ++ numeral.fraction, digit.isDigit = true)
    (grouped : ∀ group ∈ grouping, group.1 = separator) :
    (numeral.render grouping decimal).filter (· != separator) =
      numeral.integer ++
        if numeral.fraction.isEmpty then [] else decimal :: numeral.fraction := by
  have all : ∀ digit ∈ numeral.integer ++ numeral.fraction, (digit != separator) = true := by
    intro digit member
    rw [bne_iff_ne]
    rintro rfl
    rw [isDigit digit member] at notDigit
    cases notDigit
  have point : [decimal].filter (· != separator) = [decimal] := by simp [apart]
  rw [filter_render_of_kept all fun group member => by simp [grouped group member], point]
  rfl

end Numeral

namespace NumberPlan

variable {locale : String} {options : NumberOptions} {plan : NumberPlan}

/--
In the standard form, with a style other than percent and no bounds on significant digits, the text
of a number is its sign, what surrounds it, and the number itself. Without its group separators the
number is a numeral with the decimal separator in place of the point. The numeral has no more digits
than it must have, and denotes the magnitude rounded to the greatest number of fraction digits.
-/
theorem format?_standard (resolved : resolve locale options = .ok plan)
    (standard : options.form = .standard) (noPercent : options.style ≠ .percent)
    (noMinimum : options.minimumSignificant = none) (noMaximum : options.maximumSignificant = none)
    (negative : Bool) (magnitude : Magnitude) :
    ∃ (numeral : Numeral) (number : List Char) (nearest : ℕ),
      plan.format? (.finite negative magnitude) =
          some (signText options.signDisplay negative numeral ++ (plan.surroundings numeral).1 ++
            String.ofList number ++ (plan.surroundings numeral).2) ∧
        number.filter (· != (LocaleData.ofLocale locale).groupSeparator) =
          (numeral.integer ++
            if numeral.fraction.isEmpty then []
            else (LocaleData.ofLocale locale).decimalSeparator :: numeral.fraction) ∧
        numeral.IsTrimmed ((options.minimumInteger.map UInt8.toNat).getD 1)
          options.fractionBounds.1 options.fractionBounds.2 ∧
        numeral.value = nearest / 10 ^ options.fractionBounds.2 ∧
        IsNearest nearest (magnitude.value * 10 ^ options.fractionBounds.2) := by
  have settled := isResolved_of_resolve resolved
  rcases settled.rounding_fraction standard noMinimum noMaximum with ⟨rounding, ordered⟩
  have notPercent : plan.affix ≠ .percent := by
    intro percent
    exact noPercent (settled.affix_eq_percent_iff.mp percent)
  generalize options.fractionBounds = bounds at rounding ordered ⊢
  rcases bounds with ⟨minimum, maximum⟩
  have trimmed := Numeral.isTrimmed_fixed false magnitude ordered plan.minimumInteger
  rcases Numeral.value_fixed false magnitude minimum maximum plan.minimumInteger with
    ⟨nearest, isNearest, value⟩
  have rounded : plan.round? (.finite false magnitude) =
      some ((Numeral.fixed (.finite false magnitude) minimum maximum).padInteger
        plan.minimumInteger) := by
    simp [round?, rounding]
  generalize (Numeral.fixed (.finite false magnitude) minimum maximum).padInteger
    plan.minimumInteger = numeral at trimmed value rounded
  have scaled : plan.scaled (.finite negative magnitude) = .finite false magnitude := by
    unfold NumberPlan.scaled
    split
    · contradiction
    · rfl
  rcases LocaleData.separators_ofLocale locale with ⟨groupNotDigit, -, apart⟩
  refine ⟨numeral, numeral.render (plan.groupingFor { numeral }) plan.data.decimalSeparator,
    nearest, ?_, ?_, ?_, value, isNearest⟩
  · have written : plan.digits? (.finite false magnitude) = some { numeral } := by
      rw [digits?, settled.form, standard, rounded]
      rfl
    rw [format?, scaled, written, settled.sign]
    simp [writeDigits, Double.isFinite, Double.isNegative]
  · rw [← settled.data] at groupNotDigit apart ⊢
    apply Numeral.filter_render groupNotDigit apart trimmed.isDigit
    intro group isGroup
    unfold groupingFor at isGroup
    split at isGroup
    · cases isGroup
      rfl
    · cases isGroup
  · rw [← settled.minimumInteger_eq]
    exact trimmed

/-- Two and a half euros owed, in German. -/
theorem format?_standard_euro :
    let magnitude : Magnitude := ⟨5 * 2 ^ 1073, by decide +kernel⟩
    ∃ plan, resolve "de-DE" (.ofCurrency "EUR") = .ok plan ∧
      ∃ (numeral : Numeral) (number : List Char) (nearest : ℕ),
        plan.format? (.finite true magnitude) =
            some (signText .auto true numeral ++ (plan.surroundings numeral).1 ++
              String.ofList number ++ (plan.surroundings numeral).2) ∧
          number.filter (· != (LocaleData.ofLocale "de-DE").groupSeparator) =
            (numeral.integer ++
              if numeral.fraction.isEmpty then []
              else (LocaleData.ofLocale "de-DE").decimalSeparator :: numeral.fraction) ∧
          numeral.IsTrimmed 1 2 2 ∧ numeral.value = nearest / 10 ^ 2 ∧
          IsNearest nearest (magnitude.value * 10 ^ 2) := by
  intro magnitude
  have accepted : (resolve "de-DE" (.ofCurrency "EUR")).toOption.isSome = true := by
    decide +kernel
  cases resolved : resolve "de-DE" (.ofCurrency "EUR") with
  | error failure =>
      rw [resolved] at accepted
      cases accepted
  | ok plan =>
      exact ⟨plan, rfl, format?_standard resolved rfl (by decide) rfl rfl true magnitude⟩

end NumberPlan

end LocalizedText
