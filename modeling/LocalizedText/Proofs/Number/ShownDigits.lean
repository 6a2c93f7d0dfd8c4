import LocalizedText.Proofs.Number.CompactTier

/-!
# When a number is shown with digits

The digits of a finite number are those of a double that is computed from it: a hundredfold, or a
quotient by a power of a thousand or of ten. Where this double is finite, digits are shown, and else
its name. Quotients by powers of a thousand stay finite. A percentage may become infinite, and
numbers far below the least power of ten have no mantissa in the scientific form.
-/

namespace LocalizedText

namespace Double

theorem not_isFinite_dividedBy {value : Double} (notFinite : value.isFinite = false)
    (divisor : Double) : (value.dividedBy divisor).isFinite = false := by
  cases value with
  | finite => cases notFinite
  | infinite => cases divisor <;> rfl
  | notANumber => cases divisor <;> rfl

theorem dividedBy_zero {magnitude : Magnitude} (positive : 0 < magnitude.units) :
    (finite false magnitude).dividedBy zero = infinite false := by
  have nothing : Magnitude.zero.units = 0 := rfl
  simp only [dividedBy, zero, if_pos nothing, if_neg positive.ne']
  rfl

/-- A number divided by the power of ten of its decimal exponent, or of the next, stays finite. -/
theorem exists_scientificQuotient {magnitude : Magnitude} (power : ℤ)
    (positive : 0 < magnitude.units) (least : -308 ≤ power)
    (above : (finite false magnitude).decimalExponent ≤ power)
    (below : power ≤ (finite false magnitude).decimalExponent + 1) :
    ∃ quotient : Magnitude, (finite false magnitude).dividedBy (powerOfTen power) =
      finite false quotient := by
  have bounds := decimalExponent_bounds positive false
  by_cases reached : power ≤ 308
  · rcases exists_mantissa positive least reached above below with ⟨quotient, isQuotient, -⟩
    exact ⟨quotient, isQuotient⟩
  · have next : power = 309 := by omega
    have infinitePower : powerOfTen 309 = infinite false := by decide +kernel
    rw [next, infinitePower]
    exact ⟨Magnitude.zero, rfl⟩

end Double

/-- A text is zeros and the name of infinity, or of what is no number. -/
def IsNameText (text : List Char) : Prop :=
  ∃ zeros, text = List.replicate zeros '0' ++ "inf".toList ∨
    text = List.replicate zeros '0' ++ "NaN".toList

theorem IsNameText.not_isDigitText {text : List Char} (isName : IsNameText text) :
    ¬IsDigitText text := by
  rintro ⟨-, all⟩
  rcases isName with ⟨zeros, rfl | rfl⟩
  · have letter := all 'i' (by simp)
    cases letter
  · have letter := all 'N' (by simp)
    cases letter

namespace NumberPlan

variable {locale text : String} {options : NumberOptions} {plan : NumberPlan} {value : Double}
  {magnitude : Magnitude} {numeral : Numeral} {digits : Digits} {words : CompactWords} {tier : ℕ}

/-- What is not finite is rounded to its name, if at all. -/
theorem eq_of_round? (consistent : plan.rounding.IsConsistent) (notFinite : value.isFinite = false)
    (found : plan.round? value = some numeral) :
    numeral = (Numeral.fixed value 0 0).padInteger plan.minimumInteger := by
  have noDigit (minimum maximum : ℕ) (least : 1 ≤ minimum) :
      Numeral.significant? value minimum maximum = none := by
    cases value with
    | finite => cases notFinite
    | infinite => simp [Numeral.significant?, show minimum ≠ 0 by omega]
    | notANumber => simp [Numeral.significant?, show minimum ≠ 0 by omega]
  have name (minimum maximum : ℕ) :
      Numeral.fixed value minimum maximum = Numeral.fixed value 0 0 := by
    cases value with
    | finite => cases notFinite
    | infinite => rfl
    | notANumber => rfl
  simp only [round?, Option.map_eq_some_iff] at found
  rcases found with ⟨rounded, isRounded, rfl⟩
  cases rounding : plan.rounding with
  | fraction minimum maximum =>
      rw [rounding] at isRounded
      cases isRounded
      rw [name]
  | significant minimum maximum =>
      rw [rounding] at consistent isRounded
      simp [noDigit minimum maximum consistent.1] at isRounded
  | compactAutomatic =>
      rw [rounding] at isRounded
      simp only [noDigit 1 2 le_rfl] at isRounded
      split at isRounded
      · cases isRounded
        rfl
      · cases isRounded

theorem isNameText_of_round? (consistent : plan.rounding.IsConsistent)
    (notFinite : value.isFinite = false) (found : plan.round? value = some numeral) :
    IsNameText numeral.characters := by
  rw [eq_of_round? consistent notFinite found]
  refine ⟨plan.minimumInteger - 3, ?_⟩
  cases value with
  | finite => cases notFinite
  | infinite => exact .inl (by simp [Numeral.characters, Numeral.padInteger, Numeral.fixed])
  | notANumber => exact .inr (by simp [Numeral.characters, Numeral.padInteger, Numeral.fixed])

section Compact

/-- The compact form of infinity is its name in every tier. -/
theorem SettlesAt.isNameText (settles : plan.SettlesAt words value tier digits)
    (consistent : plan.rounding.IsConsistent) (notFinite : value.isFinite = false) :
    IsNameText digits.numeral.characters := by
  cases settles with
  | inFull _ rounded => exact isNameText_of_round? consistent notFinite rounded
  | abbreviated _ rounded _ =>
      exact isNameText_of_round? consistent (Double.not_isFinite_dividedBy notFinite _) rounded

/-- The compact form settles in a tier, or is not abbreviated at all. -/
theorem compact?_cases (found : plan.compact? value = some digits) :
    (∃ numeral, plan.round? value = some numeral ∧ digits = { numeral }) ∨
      ∃ words tier, tier ≤ 4 ∧ plan.SettlesAt words value tier digits := by
  unfold compact? at found
  split at found
  · rcases Option.map_eq_some_iff.mp found with ⟨numeral, rounded, rfl⟩
    exact .inl ⟨numeral, rounded, rfl⟩
  · next words _ =>
      rcases exists_tier_of_compactFrom? (Nat.sub_le _ _) found with ⟨tier, -, most, -, settles⟩
      exact .inr ⟨words, tier, most, settles⟩

end Compact

section Scientific

/-- The scientific form shows zero, a mantissa, or a tenth of a mantissa that is rounded to ten. -/
theorem scientific?_cases (found : plan.scientific? value = some digits) :
    value.isZero = true ∧ plan.round? Double.zero = some digits.numeral ∨
      value.isZero = false ∧ ∃ first,
        plan.round? (value.dividedBy (Double.powerOfTen value.decimalExponent)) = some first ∧
          if first.atLeast 10 then
            plan.round? (value.dividedBy (Double.powerOfTen (value.decimalExponent + 1))) =
              some digits.numeral
          else digits.numeral = first := by
  unfold scientific? at found
  split at found
  · next isZero =>
      rcases Option.map_eq_some_iff.mp found with ⟨numeral, rounded, rfl⟩
      exact .inl ⟨isZero, rounded⟩
  · next notZero =>
      right
      refine ⟨by simpa using notZero, ?_⟩
      rcases Option.bind_eq_some_iff.mp found with ⟨first, rounded, shown⟩
      refine ⟨first, rounded, ?_⟩
      split at shown
      · next carried =>
          rcases Option.bind_eq_some_iff.mp shown with ⟨second, again, ⟨⟩⟩
          rw [if_pos carried]
          exact again
      · next settled =>
          cases shown
          rw [if_neg settled]

/--
The scientific form has a mantissa: the power of ten of the number's exponent is not zero. Just
below, the mantissa is infinite and its name, unless zeros are put in front of it, counts as ten or
more, so that the next exponent is taken.
-/
def HasMantissa (plan : NumberPlan) (value : Double) : Prop :=
  value.isZero = true ∨ -308 ≤ value.decimalExponent ∨
    value.decimalExponent = -309 ∧ plan.minimumInteger ≤ 3

theorem atLeast_name (minimum : ℕ) :
    ((Numeral.fixed (.infinite false) 0 0).padInteger minimum).atLeast 10 = true ↔
      minimum ≤ 3 := by
  have letters : ((Numeral.fixed (.infinite false) 0 0).padInteger minimum).integer =
      List.replicate (minimum - 3) '0' ++ "inf".toList := by
    simp [Numeral.fixed, Numeral.padInteger]
  have notDigits : (List.replicate (minimum - 3) '0' ++ "inf".toList).all Char.isDigit = false := by
    rw [List.all_append]
    exact Bool.and_false _
  rw [Numeral.atLeast, letters, notDigits, if_neg Bool.false_ne_true, beq_iff_eq]
  constructor
  · intro same
    have length := congrArg List.length same
    simp at length
    omega
  · intro short
    rw [Nat.sub_eq_zero_of_le short]
    rfl

theorem isDigitText_scientific_iff (consistent : plan.rounding.IsConsistent)
    (found : plan.scientific? (.finite false magnitude) = some digits) :
    IsDigitText digits.numeral.characters ↔ plan.HasMantissa (.finite false magnitude) := by
  rcases scientific?_cases found with ⟨isZero, rounded⟩ | ⟨notZero, first, rounded, shown⟩
  · exact iff_of_true (isDigitText_of_round? consistent rounded) (.inl isZero)
  · have positive : 0 < magnitude.units := by
      by_contra zero
      simp [Double.isZero, show magnitude.units = 0 by omega] at notZero
    have bounds := (Double.decimalExponent_bounds positive false).2.1
    have hasQuotient (power : ℤ) (least : -308 ≤ power) :=
      Double.exists_scientificQuotient power positive least
    simp only [HasMantissa, notZero, Bool.false_eq_true, false_or]
    generalize (Double.finite false magnitude).decimalExponent = exponent at *
    -- A power of ten below `10 ^ (-308)` is rounded to zero, and the quotient by it is infinite.
    by_cases least : -308 ≤ exponent
    · refine iff_of_true ?_ (.inl least)
      split at shown
      · rcases hasQuotient (exponent + 1) (by omega) (by omega) le_rfl with
          ⟨quotient, isQuotient⟩
        rw [isQuotient] at shown
        exact isDigitText_of_round? consistent shown
      · rcases hasQuotient exponent least le_rfl (by omega) with ⟨quotient, isQuotient⟩
        rw [isQuotient] at rounded
        rw [shown]
        exact isDigitText_of_round? consistent rounded
    · rw [Double.powerOfTen_eq_zero bounds (by omega), Double.dividedBy_zero positive] at rounded
      have name := isNameText_of_round? consistent rfl rounded
      have carries : first.atLeast 10 = true ↔ plan.minimumInteger ≤ 3 := by
        rw [eq_of_round? consistent rfl rounded]
        exact atLeast_name plan.minimumInteger
      by_cases next : exponent = -309 ∧ plan.minimumInteger ≤ 3
      · rcases hasQuotient (exponent + 1) (by omega) (by omega) le_rfl with
          ⟨quotient, isQuotient⟩
        rw [if_pos (carries.mpr next.2), isQuotient] at shown
        exact iff_of_true (isDigitText_of_round? consistent shown) (.inr next)
      · refine iff_of_false (IsNameText.not_isDigitText ?_) (by tauto)
        split at shown
        · next carried =>
            have below : exponent + 1 < -308 := by
              have other : exponent ≠ -309 := fun same => next ⟨same, carries.mp carried⟩
              omega
            rw [Double.powerOfTen_eq_zero (by omega) below, Double.dividedBy_zero positive]
              at shown
            exact isNameText_of_round? consistent rfl shown
        · rw [shown]
          exact name

theorem isNameText_scientific (consistent : plan.rounding.IsConsistent)
    (notFinite : value.isFinite = false) (found : plan.scientific? value = some digits) :
    IsNameText digits.numeral.characters := by
  rcases scientific?_cases found with ⟨isZero, -⟩ | ⟨-, first, rounded, shown⟩
  · cases value <;> simp_all [Double.isZero, Double.isFinite]
  · split at shown
    · exact isNameText_of_round? consistent (Double.not_isFinite_dividedBy notFinite _) shown
    · rw [shown]
      exact isNameText_of_round? consistent (Double.not_isFinite_dividedBy notFinite _) rounded

end Scientific

section Forms

/-- Digits are shown for a magnitude, in the scientific form if it has a mantissa. -/
theorem isDigitText_digits?_iff (consistent : plan.rounding.IsConsistent)
    (found : plan.digits? (.finite false magnitude) = some digits) :
    IsDigitText digits.numeral.characters ↔
      (plan.form = .scientific → plan.HasMantissa (.finite false magnitude)) := by
  cases form : plan.form with
  | standard =>
      simp only [digits?, form] at found
      rcases Option.map_eq_some_iff.mp found with ⟨numeral, rounded, rfl⟩
      exact iff_of_true (isDigitText_of_round? consistent rounded) (by simp)
  | compact =>
      simp only [digits?, form] at found
      refine iff_of_true ?_ (by simp)
      rcases compact?_cases found with ⟨numeral, rounded, rfl⟩ | ⟨words, tier, most, settles⟩
      · exact isDigitText_of_round? consistent rounded
      · exact (settles.isDigitText consistent most).1
  | scientific =>
      simp only [digits?, form] at found
      simpa using isDigitText_scientific_iff consistent found

theorem isNameText_digits? (consistent : plan.rounding.IsConsistent)
    (notFinite : value.isFinite = false) (found : plan.digits? value = some digits) :
    IsNameText digits.numeral.characters := by
  cases form : plan.form with
  | standard =>
      simp only [digits?, form] at found
      rcases Option.map_eq_some_iff.mp found with ⟨numeral, rounded, rfl⟩
      exact isNameText_of_round? consistent notFinite rounded
  | compact =>
      simp only [digits?, form] at found
      rcases compact?_cases found with ⟨numeral, rounded, rfl⟩ | ⟨words, tier, most, settles⟩
      · exact isNameText_of_round? consistent notFinite rounded
      · exact settles.isNameText consistent notFinite
  | scientific =>
      simp only [digits?, form] at found
      exact isNameText_scientific consistent notFinite found

/-- What digits are taken from is finite but for the percentages that are too large. -/
theorem IsResolved.isFinite_scaled_iff (resolved : plan.IsResolved locale options)
    (finite : value.isFinite = true) :
    (plan.scaled value).isFinite = true ↔
      (options.style = .percent → (value.abs.times (Double.ofNat 100)).isFinite = true) := by
  have percent := resolved.affix_eq_percent_iff
  unfold scaled
  split
  · next isPercent => simp [percent.mp isPercent]
  · next notPercent =>
      rcases Double.exists_finite finite with ⟨negative, magnitude, rfl⟩
      have other : options.style ≠ .percent := fun style => notPercent (percent.mpr style)
      exact iff_of_true rfl (absurd · other)

/-- The digits of a finite number are shown where the double that they are taken from is finite. -/
theorem IsResolved.isDigitText_iff (resolved : plan.IsResolved locale options)
    (finite : value.isFinite = true) (found : plan.digits? (plan.scaled value) = some digits) :
    IsDigitText digits.numeral.characters ↔
      (options.style = .percent → (value.abs.times (Double.ofNat 100)).isFinite = true) ∧
        (options.form = .scientific → plan.HasMantissa (plan.scaled value)) := by
  have consistent := resolved.isConsistent
  have shown := plan.isShown_scaled finite
  rw [← resolved.isFinite_scaled_iff finite, ← resolved.form]
  generalize plan.scaled value = number at found shown ⊢
  cases shown with
  | magnitude magnitude =>
      simpa [Double.isFinite] using isDigitText_digits?_iff consistent found
  | infinite =>
      have name := isNameText_digits? consistent rfl found
      simp [name.not_isDigitText, Double.isFinite]

end Forms

end NumberPlan

namespace ManualNumber

variable {magnitude : Magnitude}

/-- What a manual text may have behind its number. -/
def marks : List String :=
  ["", "%", "K", "M", "B"]

/--
The number of a manual text stands between its sign with a currency symbol and a mark, and is made
of digits unless a percentage is infinite.
-/
structure Shows (value : Double) (options : NumberOptions) (numeral : Numeral)
    (grouping : Option (Char × ℕ)) (mark : String) : Prop where
  text : format value options =
    sign value ++ (if options.style = .currency then symbol options.currency else "") ++
      String.ofList (numeral.render grouping '.') ++ mark
  separator : ∀ group ∈ grouping, group.1 = ','
  isMark : mark ∈ marks
  isDigitText_iff : IsDigitText numeral.characters ↔
    (options.style = .percent → (value.abs.times (Double.ofNat 100)).isFinite = true)

/-- The tier of a number is one of those that are tried, or the one named before them. -/
theorem tier?_mem {value : Double} {above : Option (ℕ × String)} {tiers : List (ℕ × String)}
    {tier : ℕ × String} (found : tier? value above tiers = some tier) :
    tier ∈ above.toList ++ tiers := by
  induction tiers generalizing above with
  | nil => cases found
  | cons first lower ih =>
      simp only [tier?] at found
      split at found
      · cases above with
        | none => simp_all
        | some above =>
            simp only at found
            split at found <;> simp_all
      · have later := ih found
        simp only [Option.toList_some, List.singleton_append] at later
        exact List.mem_append_right _ later

theorem exists_shows_of_plain (negative : Bool) (magnitude : Magnitude) {options : NumberOptions}
    (notCurrency : options.style ≠ .currency) (notPercent : options.style ≠ .percent) :
    ∃ numeral grouping mark,
      Shows (.finite negative magnitude) options numeral grouping mark := by
  have digits (magnitude : Magnitude) {minimum maximum : ℕ} (ordered : minimum ≤ maximum) :
      IsDigitText (Numeral.fixed (.finite false magnitude) minimum maximum).characters :=
    Numeral.isDigitText_fixed false magnitude ordered
  have inGroups {minimum maximum : ℕ} (ordered : minimum ≤ maximum)
      (own : format (.finite negative magnitude) options =
        sign (.finite negative magnitude) ++ grouped (.finite false magnitude) minimum maximum) :
      ∃ numeral grouping mark,
        Shows (.finite negative magnitude) options numeral grouping mark := by
    refine ⟨Numeral.fixed (.finite false magnitude) minimum maximum, some (',', 1), "", ?_, ?_, ?_,
      iff_of_true (digits magnitude ordered) (absurd · notPercent)⟩
    · simp [own, grouped, notCurrency]
    · simp
    · simp [marks]
  by_cases compact : options.form = .compact
  · cases found : tier? (.finite false magnitude) none tiers with
    | none =>
        apply inGroups (show 0 ≤ 3 by decide)
        cases style : options.style <;>
          simp_all [format, Double.isFinite, Double.abs]
    | some tier =>
        rcases tier with ⟨scale, word⟩
        have text : format (.finite negative magnitude) options =
            sign (.finite negative magnitude) ++
              (fixedDigits ((Double.finite false magnitude).dividedBy (Double.ofNat scale)) 1 ++
                word) := by
          cases style : options.style <;>
            simp_all [format, Double.isFinite, Double.abs]
        have listed : (scale, word) ∈ tiers := by
          simpa using tier?_mem found
        obtain ⟨least, greatest, isMark⟩ : 1000 ≤ scale ∧ scale ≤ 10 ^ 12 ∧ word ∈ marks := by
          have all : ∀ tier ∈ tiers, 1000 ≤ tier.1 ∧ tier.1 ≤ 10 ^ 12 ∧ tier.2 ∈ marks := by
            decide
          exact all _ listed
        rcases Double.exists_thousandth magnitude least greatest with ⟨quotient, isQuotient⟩
        refine ⟨Numeral.fixed (.finite false quotient) 1 1, none, word, ?_, by simp, isMark,
          iff_of_true (digits quotient le_rfl) (absurd · notPercent)⟩
        simp [text, isQuotient, fixedDigits, notCurrency, String.append_assoc]
  · apply inGroups (Nat.le_max_right ((options.maximumFraction.map UInt8.toNat).getD 3)
      ((options.minimumFraction.map UInt8.toNat).getD 0))
    cases style : options.style <;>
      simp_all [format, Double.isFinite, Double.abs]

theorem exists_shows (negative : Bool) (magnitude : Magnitude) (options : NumberOptions) :
    ∃ numeral grouping mark,
      Shows (.finite negative magnitude) options numeral grouping mark := by
  by_cases currency : options.style = .currency
  · refine ⟨Numeral.fixed (.finite false magnitude)
      ((options.maximumFraction.map UInt8.toNat).getD 2)
      ((options.maximumFraction.map UInt8.toNat).getD 2), some (',', 1), "", ?_, ?_, ?_, ?_⟩
    · simp [format, currency, Double.isFinite, Double.abs, grouped, String.append_assoc]
    · simp
    · simp [marks]
    · exact iff_of_true (Numeral.isDigitText_fixed false magnitude le_rfl) (by simp [currency])
  · by_cases percent : options.style = .percent
    · refine ⟨Numeral.fixed ((Double.finite false magnitude).times (Double.ofNat 100))
        ((options.maximumFraction.map UInt8.toNat).getD 0)
        ((options.maximumFraction.map UInt8.toNat).getD 0), none, "%", ?_, ?_, ?_, ?_⟩
      · simp [format, percent, Double.isFinite, Double.abs, fixedDigits, String.append_assoc]
      · simp
      · simp [marks]
      · simp only [percent, forall_const, Double.abs]
        have shown := NumberPlan.isShown_hundredfold magnitude
        generalize (Double.finite false magnitude).times (Double.ofNat 100) = product at shown ⊢
        cases shown with
        | magnitude product =>
            exact iff_of_true (Numeral.isDigitText_fixed false product le_rfl) rfl
        | infinite =>
            exact iff_of_false (IsNameText.not_isDigitText ⟨0, .inl rfl⟩) Bool.false_ne_true
    · exact exists_shows_of_plain negative magnitude currency percent

end ManualNumber

namespace NumberPlan

/--
What is shown of a finite number are digits, apart from its sign, separators, word, exponent and
surroundings, exactly if a percentage does not become infinite and, in the scientific form, the
number has a mantissa. Without data of a locale only percentages matter.
-/
theorem finite_shows_digits_iff (locale : String) (options : NumberOptions) {value : Double}
    (finite : value.isFinite = true) :
    (∀ plan text, resolve locale options = .ok plan → plan.format? value = some text →
      ∃ digits : Digits, plan.digits? (plan.scaled value) = some digits ∧
        text = signText options.signDisplay value.isNegative digits.numeral ++
            (plan.surroundings digits.numeral).1 ++ String.ofList (plan.numberText digits) ++
              digits.word ++ digits.exponentText ++ (plan.surroundings digits.numeral).2 ∧
          (IsDigitText digits.numeral.characters ↔
            (options.style = .percent → (value.abs.times (Double.ofNat 100)).isFinite = true) ∧
              (options.form = .scientific → plan.HasMantissa (plan.scaled value))) ∧
          (IsDigitText digits.numeral.characters →
            (plan.numberText digits).filter (· != plan.data.groupSeparator) =
              digits.numeral.integer ++
                if digits.numeral.fraction.isEmpty then []
                else plan.data.decimalSeparator :: digits.numeral.fraction)) ∧
      ∃ numeral grouping mark, ManualNumber.Shows value options numeral grouping mark := by
  constructor
  · intro plan text resolved written
    have settled := isResolved_of_resolve resolved
    rcases (format?_eq_some_iff finite).mp written with ⟨digits, isDigits, isText⟩
    refine ⟨digits, isDigits, ?_, settled.isDigitText_iff finite isDigits,
      filter_numberText settled.data⟩
    rw [isText, unsigned, writeDigits_eq, settled.sign]
    simp only [String.append_assoc]
  · rcases Double.exists_finite finite with ⟨negative, magnitude, rfl⟩
    exact ManualNumber.exists_shows negative magnitude options

/-- A quarter is shown with digits as a percentage. -/
theorem finite_shows_digits_iff_quarter :
    let value : Double := .finite false ⟨2 ^ 1072, by decide +kernel⟩
    value.isFinite = true ∧
      (∃ plan, resolve "en" .percent = .ok plan ∧ plan.format? value = some "25%" ∧
        ∃ digits : Digits,
          "25%" = signText .auto false digits.numeral ++ (plan.surroundings digits.numeral).1 ++
              String.ofList (plan.numberText digits) ++ digits.word ++ digits.exponentText ++
                (plan.surroundings digits.numeral).2 ∧
            IsDigitText digits.numeral.characters) ∧
      ∃ numeral grouping mark, ManualNumber.Shows value .percent numeral grouping mark := by
  intro value
  have hundredfold : (value.abs.times (Double.ofNat 100)).isFinite = true := by decide +kernel
  have made : ∃ plan, resolve "en" .percent = .ok plan ∧ plan.format? value = some "25%" := by
    decide +kernel
  have shows := finite_shows_digits_iff "en" .percent (show value.isFinite = true from rfl)
  refine ⟨rfl, ?_, shows.2⟩
  rcases made with ⟨plan, resolved, written⟩
  rcases shows.1 plan "25%" resolved written with ⟨digits, -, text, isDigit, -⟩
  refine ⟨plan, resolved, written, digits, text, isDigit.mpr ⟨fun _ => hundredfold, ?_⟩⟩
  intro scientific
  cases scientific

/-- A finite number whose percentage has no digits, with data of a locale and without. -/
theorem finite_percentage_without_digits :
    let value : Double := .finite false ⟨8016673440035891 * 2 ^ 2041, by decide +kernel⟩
    value.isFinite = true ∧
      (∃ plan, resolve "en" .percent = .ok plan ∧ plan.format? value = some "inf%") ∧
      ManualNumber.format value .percent = "inf%" ∧
      ∀ character ∈ "inf%".toList, character.isDigit = false := by
  intro value
  exact ⟨rfl, by decide +kernel, by decide +kernel, by simp⟩

end NumberPlan

end LocalizedText
