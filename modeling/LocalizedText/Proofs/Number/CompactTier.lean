import LocalizedText.Proofs.Number.NumberText
import LocalizedText.Proofs.Number.PlainDecimal

/-!
# Tiers of the compact form

The compact form starts in the tier that a number reaches, and goes on to the next one as long as
the rounded quotient reaches a thousand. So a number before a word is less than a thousand, unless
the word is the one for trillions. A tier without a word ends the search whatever the rounding does:
in languages that do not abbreviate thousands, the last numbers below a million are rounded up to a
million that is written in full.
-/

namespace LocalizedText

namespace Double

variable {power : ℕ}

/-- A finite quotient of two numbers without a sign has no sign. -/
theorem exists_quotient_of_isFinite {left right : Magnitude}
    (isFinite : ((finite false left).dividedBy (finite false right)).isFinite = true) :
    ∃ quotient : Magnitude, (finite false left).dividedBy (finite false right) =
      finite false quotient := by
  simp only [dividedBy] at isFinite ⊢
  split
  · next zero =>
      rw [if_pos zero] at isFinite
      split at isFinite <;> cases isFinite
  · next nonzero =>
      rw [if_neg nonzero] at isFinite
      cases nearest : Magnitude.nearestUnits? (left.units * unitsPerOne) right.units with
      | none =>
          rw [nearest] at isFinite
          cases isFinite
      | some quotient => exact ⟨quotient, rfl⟩

/-- Dividing by a power of a thousand does not leave the doubles. -/
theorem exists_thousandth (magnitude : Magnitude) (least : 1000 ≤ power)
    (greatest : power ≤ 10 ^ 12) :
    ∃ quotient : Magnitude, (finite false magnitude).dividedBy (ofNat power) =
      .finite false quotient := by
  have powerLarge : (1000 : ℚ) ≤ power := by exact_mod_cast least
  have near := ofNat_isNear (show 0 < power by omega) (greatest.trans (by norm_num))
  have small : magnitude.value ≤ 1 / 2 * limit * power := by
    have reached : (3 / 2 * 10 ^ 0 : ℚ) ≤ limit := le_limit (by decide)
    have below := value_le_limit magnitude
    nlinarith
  rcases exists_rounds_dividedBy near (by decide) (by linarith) small with ⟨_, rounds, -, -⟩
  rcases exists_ofNat (show 0 < power by omega) (greatest.trans (by norm_num)) with
    ⟨divisor, isDivisor, -⟩
  rw [isDivisor] at rounds ⊢
  exact exists_quotient_of_isFinite rounds.isFinite

end Double

namespace NumberPlan

variable {locale : String} {options : NumberOptions} {plan : NumberPlan} {value : Double}
  {magnitude : Magnitude} {numeral : Numeral} {digits : Digits} {words : CompactWords}
  {tier remaining : ℕ}

theorem exists_compactQuotient (magnitude : Magnitude) (most : tier ≤ 4) :
    ∃ quotient : Magnitude, compactQuotient (.finite false magnitude) tier =
      .finite false quotient := by
  cases tier with
  | zero => exact ⟨magnitude, Double.dividedBy_one magnitude⟩
  | succ lower =>
      apply Double.exists_thousandth magnitude (Nat.le_self_pow (by omega) 1000)
      apply (Nat.pow_le_pow_right (by decide) most).trans
      norm_num

section Tiers

/-- The first tier that is tried is the number of powers of a thousand that are reached. -/
theorem compactTier_spec (value : Double) :
    compactTier value ≤ 4 ∧
      (∀ power < compactTier value, value.atLeast (1000 ^ (power + 1)) = true) ∧
      (compactTier value < 4 → value.atLeast (1000 ^ (compactTier value + 1)) = false) := by
  unfold compactTier
  generalize isReached : (fun power => value.atLeast (1000 ^ (power + 1))) = reached
  have reaches (power : ℕ) : value.atLeast (1000 ^ (power + 1)) = reached power := by
    rw [← isReached]
  simp only [reaches, List.takeWhile_eq_take_findIdx_not, List.length_take]
  have few : (List.range 4).findIdx (fun power => !reached power) ≤ (List.range 4).length :=
    List.findIdx_le_length
  rw [Nat.min_eq_left few]
  refine ⟨few, ?_, ?_⟩
  · intro power before
    simpa using List.not_of_lt_findIdx before
  · intro inside
    have stops := List.findIdx_getElem (w := show
      (List.range 4).findIdx (fun power => !reached power) < (List.range 4).length from inside)
    simpa using stops

theorem le_compactTier_iff (positive : 1 ≤ tier) (most : tier ≤ 4) :
    tier ≤ compactTier (.finite false magnitude) ↔ (1000 : ℚ) ^ tier ≤ magnitude.value := by
  rcases compactTier_spec (.finite false magnitude) with ⟨-, reached, stops⟩
  constructor
  · intro within
    have own := reached (tier - 1) (by omega)
    rw [Nat.sub_add_cancel positive, Double.atLeast_iff, Nat.cast_pow] at own
    exact own
  · intro above
    by_contra beyond
    have below := stops (by omega)
    rw [← Bool.not_eq_true, Double.atLeast_iff, Nat.cast_pow, not_le] at below
    have power : (1000 : ℚ) ^ (compactTier (.finite false magnitude) + 1) ≤ 1000 ^ tier :=
      pow_le_pow_right₀ (by norm_num) (by omega)
    norm_num at below
    linarith

/-- A tier has a word, but the number of this tier rounds up to a thousand. -/
def Carries (plan : NumberPlan) (words : CompactWords) (value : Double) (tier : ℕ) : Prop :=
  (wordOfTier? words tier).isSome = true ∧
    ∃ numeral, plan.round? (compactQuotient value tier) = some numeral ∧
      numeral.atLeast 1000 = true

/-- What the compact form shows when it goes no further than a tier. -/
inductive SettlesAt (plan : NumberPlan) (words : CompactWords) (value : Double) (tier : ℕ) :
    Digits → Prop where
  | inFull {numeral : Numeral} (noWord : wordOfTier? words tier = none)
      (rounded : plan.round? value = some numeral) : SettlesAt plan words value tier { numeral }
  | abbreviated {numeral : Numeral} {word : String} (isWord : wordOfTier? words tier = some word)
      (rounded : plan.round? (compactQuotient value tier) = some numeral)
      (below : tier < 4 → numeral.atLeast 1000 = false) :
      SettlesAt plan words value tier { numeral, word }

/-- The compact form leaves tiers as long as they carry, and settles at the next one. -/
theorem exists_tier_of_compactFrom? (few : remaining ≤ 4)
    (found : plan.compactFrom? words value remaining = some digits) :
    ∃ tier, 4 - remaining ≤ tier ∧ tier ≤ 4 ∧
      (∀ lower, 4 - remaining ≤ lower → lower < tier → plan.Carries words value lower) ∧
      plan.SettlesAt words value tier digits := by
  fun_induction compactFrom? plan words value remaining with
  | case1 remaining tier noWord =>
      rcases Option.map_eq_some_iff.mp found with ⟨numeral, rounded, rfl⟩
      exact ⟨4 - remaining, le_rfl, by omega, by omega, .inFull noWord rounded⟩
  | case2 => cases found
  | case3 word numeral tier isWord rounded =>
      cases found
      exact ⟨4, le_rfl, le_rfl, by omega, .abbreviated isWord rounded (by omega)⟩
  | case4 word numeral next carried tier isWord rounded inductionHypothesis =>
      rcases inductionHypothesis (by omega) found with ⟨last, above, most, carries, settles⟩
      refine ⟨last, by omega, most, ?_, settles⟩
      intro lower least below
      rcases Nat.eq_or_lt_of_le least with same | more
      · rw [← same]
        exact ⟨by rw [isWord]; rfl, numeral, rounded, carried⟩
      · exact carries lower (by omega) below
  | case5 word numeral next below tier isWord rounded =>
      cases found
      refine ⟨4 - (next + 1), le_rfl, by omega, by omega, .abbreviated isWord rounded ?_⟩
      intro _
      simpa using below

/-- Wherever the compact form settles, it shows digits, and no exponent. -/
theorem SettlesAt.isDigitText (settles : plan.SettlesAt words (.finite false magnitude) tier digits)
    (consistent : plan.rounding.IsConsistent) (most : tier ≤ 4) :
    IsDigitText digits.numeral.characters ∧ digits.exponent = none := by
  cases settles with
  | inFull _ rounded => exact ⟨isDigitText_of_round? consistent rounded, rfl⟩
  | abbreviated _ rounded _ =>
      rcases exists_compactQuotient magnitude most with ⟨quotient, isQuotient⟩
      rw [isQuotient] at rounded
      exact ⟨isDigitText_of_round? consistent rounded, rfl⟩

/-- The compact form of a positive number ends in a tier, with a word or in full. -/
theorem exists_settlesAt_of_compact (isWords : plan.words = some words)
    (counts : plan.CountsDigits) (positive : 0 < magnitude.units) :
    ∃ digits tier, plan.compact? (.finite false magnitude) = some digits ∧ tier ≤ 4 ∧
      compactTier (.finite false magnitude) ≤ tier ∧
      (∀ lower, compactTier (.finite false magnitude) ≤ lower → lower < tier →
        plan.Carries words (.finite false magnitude) lower) ∧
      plan.SettlesAt words (.finite false magnitude) tier digits := by
  have ends := plan.isSome_compact?_of_hasDigit positive counts
  rcases Option.isSome_iff_exists.mp ends with ⟨digits, found⟩
  have tried := found
  rw [compact?, isWords] at tried
  have few := (compactTier_spec (.finite false magnitude)).1
  rcases exists_tier_of_compactFrom? (Nat.sub_le _ _) tried with
    ⟨tier, least, most, carries, settles⟩
  rw [Nat.sub_sub_self few] at least carries
  exact ⟨digits, tier, found, most, least, carries, settles⟩

end Tiers

section Automatic

/-- Without bounds on digits, numbers from a hundred on are shown as the nearest whole number. -/
theorem exists_nearest_of_round? (rounding : plan.rounding = .compactAutomatic)
    (large : 100 ≤ magnitude.value)
    (found : plan.round? (.finite false magnitude) = some numeral) :
    ∃ nearest : ℕ, IsNearest nearest magnitude.value ∧ numeral.value = nearest := by
  have reached : (Double.finite false magnitude).atLeast 100 = true := by
    rw [Double.atLeast_iff]
    exact_mod_cast large
  simp only [round?, rounding, reached, or_true, if_true, Option.map_some, Option.some.injEq]
    at found
  subst found
  rcases Numeral.value_fixed false magnitude 0 0 plan.minimumInteger with ⟨nearest, isNearest, value⟩
  rw [pow_zero, mul_one] at isNearest
  rw [pow_zero, div_one] at value
  exact ⟨nearest, isNearest, value⟩

/-- Without bounds on digits, numbers below a hundred have two digits that count. -/
theorem value_le_of_round? (rounding : plan.rounding = .compactAutomatic)
    (positive : 0 < magnitude.units) (small : magnitude.value < 100)
    (found : plan.round? (.finite false magnitude) = some numeral) : numeral.value ≤ 100 := by
  have below : (Double.finite false magnitude).atLeast 100 = false := by
    rw [← Bool.not_eq_true, Double.atLeast_iff, not_le]
    exact_mod_cast small
  rcases Numeral.significant?_isSignificant positive 1 (show 1 ≤ 2 by decide) with
    ⟨shown, isShown, -, isRounding, -⟩
  simp only [round?, rounding, below, reduceCtorEq, Bool.false_eq_true, or_self, if_false, isShown,
    Option.map_some, Option.some.injEq] at found
  subst found
  rw [Numeral.value_padInteger]
  have most := isRounding.le_zpow (show magnitude.value < 10 ^ (2 : ℤ) by norm_num [small])
  norm_num at most
  exact most

end Automatic

section Words

/-- Only thousands may lack a word, no two tiers share theirs, and no word has a digit. -/
structure HasUsualWords (words : CompactWords) : Prop where
  named : ∀ tier ≤ 4, tier ≠ 1 → (wordOfTier? words tier).isSome = true
  distinct : ∀ tier ≤ 4, ∀ other ≤ 4, wordOfTier? words tier = wordOfTier? words other →
    tier = other
  noDigit : ∀ tier ≤ 4, ∀ word ∈ wordOfTier? words tier, ∀ character ∈ word.toList,
    character.isDigit = false

theorem hasUsualWords_ofLocale {display : CompactDisplay}
    (isWords : (LocaleData.ofLocale locale).words display = some words) : HasUsualWords words := by
  have all : ∀ data ∈ LocaleData.all, ∀ words ∈ data.shortWords.toList ++ data.longWords.toList,
      (∀ tier ≤ 4, tier ≠ 1 → (wordOfTier? words tier).isSome = true) ∧
        (∀ tier ≤ 4, ∀ other ≤ 4, wordOfTier? words tier = wordOfTier? words other →
          tier = other) ∧
        ∀ tier ≤ 4, ∀ word ∈ wordOfTier? words tier,
          word.toList.all (fun character => !character.isDigit) = true := by
    decide +kernel
  have listed : words ∈ (LocaleData.ofLocale locale).shortWords.toList ++
      (LocaleData.ofLocale locale).longWords.toList := by
    cases display <;> simp_all [LocaleData.words]
  rcases all _ (LocaleData.ofLocale_mem locale) words listed with ⟨named, distinct, noDigit⟩
  refine ⟨named, distinct, ?_⟩
  intro tier most word isWord
  simpa using noDigit tier most word isWord

theorem resolveWords_of_compact {data : LocaleData} (compact : options.form = .compact) :
    resolveWords locale data options =
      match data.words options.compactDisplay with
      | some words => .ok (some words)
      | none => .error (.unavailable .compactForm locale) := by
  rw [resolveWords, compact]
  cases options.compactDisplay <;> rfl

theorem IsResolved.exists_words (resolved : plan.IsResolved locale options)
    (compact : options.form = .compact) :
    ∃ words, plan.words = some words ∧
      (LocaleData.ofLocale locale).words options.compactDisplay = some words := by
  have isWords := resolved.words
  rw [resolved.data, resolveWords_of_compact compact] at isWords
  cases found : (LocaleData.ofLocale locale).words options.compactDisplay with
  | none => simp [found] at isWords
  | some words =>
      simp only [found, Except.ok.injEq] at isWords
      exact ⟨words, isWords.symm, rfl⟩

theorem IsResolved.rounding_automatic (resolved : plan.IsResolved locale options)
    (compact : options.form = .compact) (noBounds : options.hasNoDigitBounds = true) :
    plan.rounding = .compactAutomatic := by
  rcases resolved.rounding_cases with ⟨bounds, -⟩ | ⟨-, -, automatic⟩ | ⟨-, other, -⟩
  · rw [options.hasNoDigitBounds_of_boundsSignificant bounds] at noBounds
    cases noBounds
  · exact automatic
  · exact absurd ⟨compact, noBounds⟩ other

end Words

section Shown

/-- A number that is written in full, as thousands have no word, and rounds up to a million. -/
def RoundsToMillion (words : CompactWords) (magnitude : Magnitude) : Prop :=
  wordOfTier? words 1 = none ∧ 1999999 / 2 ≤ magnitude.value ∧ magnitude.value < 10 ^ 6

/-- What the numeral and the word of the compact form say about each other. -/
structure IsCompactShown (words : CompactWords) (magnitude : Magnitude) (numeral : Numeral)
    (word : String) : Prop where
  isWord : ∃ tier ≤ 4, wordOfTier? words tier = some word
  noDigit : ∀ character ∈ word.toList, character.isDigit = false
  below : ∀ tier, 1 ≤ tier → tier < 4 → wordOfTier? words tier = some word → numeral.value < 1000
  inFull : word = "" → ¬RoundsToMillion words magnitude → ∀ tier, 1 ≤ tier → tier ≤ 4 →
    (wordOfTier? words tier).isSome = true → numeral.value < 1000 ^ tier
  million : RoundsToMillion words magnitude → word = "" ∧ numeral.value = 10 ^ 6

/-- Where thousands have no word, the tiers are left there. -/
theorem RoundsToMillion.eq_one (million : RoundsToMillion words magnitude)
    (first : compactTier (.finite false magnitude) ≤ tier)
    (carries : ∀ lower, compactTier (.finite false magnitude) ≤ lower → lower < tier →
      plan.Carries words (.finite false magnitude) lower) : tier = 1 := by
  rcases million with ⟨noWord, least, most⟩
  have above : 1 ≤ compactTier (.finite false magnitude) := by
    rw [le_compactTier_iff le_rfl (by decide)]
    linarith
  have below : ¬2 ≤ compactTier (.finite false magnitude) := by
    rw [le_compactTier_iff (by decide) (by decide)]
    linarith
  by_contra other
  have thousand := (carries 1 (by omega) (by omega)).1
  rw [noWord] at thousand
  cases thousand

theorem isCompactShown_of_inFull (usual : HasUsualWords words)
    (rounding : plan.rounding = .compactAutomatic) (positive : 0 < magnitude.units)
    (first : compactTier (.finite false magnitude) ≤ 1) (noWord : wordOfTier? words 1 = none)
    (rounded : plan.round? (.finite false magnitude) = some numeral) :
    IsCompactShown words magnitude numeral "" := by
  have bounded : magnitude.value < 1000 ^ 2 := by
    rw [← not_le, ← le_compactTier_iff (by decide) (by decide)]
    omega
  refine ⟨⟨0, by decide, rfl⟩, by simp, ?_, ?_, ?_⟩
  · intro tier least most isWord
    have lowest := usual.distinct tier (by omega) 0 (by decide) isWord
    omega
  · intro _ noMillion tier least most isWord
    have notThousand : tier ≠ 1 := by
      rintro rfl
      rw [noWord] at isWord
      cases isWord
    have small : magnitude.value < 1999999 / 2 := by
      by_contra large
      exact noMillion ⟨noWord, not_lt.mp large, by linarith⟩
    have power : (1000 : ℚ) ^ 2 ≤ 1000 ^ tier := pow_le_pow_right₀ (by norm_num) (by omega)
    -- From one hundred on only whole numbers are shown.
    rcases lt_or_ge magnitude.value 100 with few | many
    · have most := value_le_of_round? rounding positive few rounded
      linarith
    · rcases exists_nearest_of_round? rounding many rounded with ⟨nearest, isNearest, value⟩
      have most : nearest ≤ 999999 := by
        apply isNearest.le_of_lt_half
        norm_num
        linarith
      have cast : (nearest : ℚ) ≤ 999999 := by exact_mod_cast most
      rw [value]
      linarith
  · rintro ⟨-, least, most⟩
    rcases exists_nearest_of_round? rounding (by linarith) rounded with ⟨nearest, isNearest, value⟩
    have million : nearest = 1000000 := by
      apply isNearest.eq_of_half_le (by decide)
      · norm_num
        linarith
      · norm_num at most ⊢
        linarith
    refine ⟨rfl, ?_⟩
    rw [value, million]
    norm_num

theorem isCompactShown_of_abbreviated {word : String} (usual : HasUsualWords words)
    (isDigit : IsDigitText numeral.characters) (most : tier ≤ 4)
    (notMillion : ¬RoundsToMillion words magnitude) (isWord : wordOfTier? words tier = some word)
    (below : tier < 4 → numeral.atLeast 1000 = false) :
    IsCompactShown words magnitude numeral word := by
  have lessThanThousand (less : tier < 4) : numeral.value < 1000 := by
    exact_mod_cast Numeral.lt_of_atLeast_eq_false isDigit (below less)
  refine ⟨⟨tier, most, isWord⟩, usual.noDigit tier most word isWord, ?_, ?_, ?_⟩
  · intro other least less otherWord
    have same := usual.distinct other less.le tier most (otherWord.trans isWord.symm)
    exact lessThanThousand (by omega)
  · rintro rfl - other least - -
    have lowest := usual.distinct tier most 0 (by decide) isWord
    have power : (1000 : ℚ) ^ 1 ≤ 1000 ^ other := pow_le_pow_right₀ (by norm_num) least
    have less := lessThanThousand (by omega)
    linarith
  · intro million
    exact absurd million notMillion

theorem isCompactShown_of_settlesAt (usual : HasUsualWords words)
    (rounding : plan.rounding = .compactAutomatic) (positive : 0 < magnitude.units)
    (most : tier ≤ 4) (first : compactTier (.finite false magnitude) ≤ tier)
    (carries : ∀ lower, compactTier (.finite false magnitude) ≤ lower → lower < tier →
      plan.Carries words (.finite false magnitude) lower)
    (settles : plan.SettlesAt words (.finite false magnitude) tier digits)
    (isDigit : IsDigitText digits.numeral.characters) :
    IsCompactShown words magnitude digits.numeral digits.word := by
  cases settles with
  | inFull noWord rounded =>
      have thousands : tier = 1 := by
        by_contra other
        have named := usual.named tier most other
        rw [noWord] at named
        cases named
      subst thousands
      exact isCompactShown_of_inFull usual rounding positive first noWord rounded
  | abbreviated isWord _ below =>
      apply isCompactShown_of_abbreviated usual isDigit most _ isWord below
      intro million
      have thousands := million.eq_one first carries
      rw [thousands, million.1] at isWord
      cases isWord

end Shown

/--
Without bounds on digits, the compact form of a decimal is its sign, a number, and the word of a
tier. Before a word below the one for trillions the number is less than a thousand. Without a word
it is less than every power of a thousand that has one, except for the last half below a million
where thousands have no word: that is shown as a million in full.
-/
theorem format?_compact_tier (resolved : resolve locale options = .ok plan)
    (decimal : options.style = .decimal) (compact : options.form = .compact)
    (noBounds : options.hasNoDigitBounds = true) (negative : Bool)
    (positive : 0 < magnitude.units) :
    ∃ (words : CompactWords) (numeral : Numeral) (number : List Char) (word : String),
      (LocaleData.ofLocale locale).words options.compactDisplay = some words ∧
        plan.format? (.finite negative magnitude) =
          some (signText options.signDisplay negative numeral ++ String.ofList number ++ word) ∧
        IsDigitText numeral.characters ∧
        number.filter (· != (LocaleData.ofLocale locale).groupSeparator) =
          (numeral.integer ++
            if numeral.fraction.isEmpty then []
            else (LocaleData.ofLocale locale).decimalSeparator :: numeral.fraction) ∧
        IsCompactShown words magnitude numeral word := by
  have settled := isResolved_of_resolve resolved
  have rounding := settled.rounding_automatic compact noBounds
  have affix := settled.affix_eq_bare decimal
  have counts : plan.CountsDigits := by simp [CountsDigits, rounding]
  rcases settled.exists_words compact with ⟨words, own, isWords⟩
  rcases exists_settlesAt_of_compact own counts positive with
    ⟨digits, tier, found, most, first, carries, settles⟩
  rcases settles.isDigitText settled.isConsistent most with ⟨isDigit, noExponent⟩
  refine ⟨words, digits.numeral, plan.numberText digits, digits.word, isWords, ?_, isDigit, ?_, ?_⟩
  · apply (format?_eq_some_iff rfl).mpr
    refine ⟨digits, ?_, ?_⟩
    · rw [digits?, settled.form, compact, scaled, affix]
      exact found
    · rw [unsigned, surroundings, affix, writeDigits_eq, Digits.exponentText, noExponent,
        settled.sign]
      simp [Double.isNegative, String.append_assoc]
  · rw [← settled.data]
    exact filter_numberText settled.data isDigit
  · exact isCompactShown_of_settlesAt (hasUsualWords_ofLocale isWords) rounding positive most first
      carries settles isDigit

/-- Half a unit below a thousand in German, which rounds up to a thousand without a word. -/
theorem format?_compact_tier_thousand :
    let magnitude : Magnitude := ⟨1999 * 2 ^ 1073, by decide +kernel⟩
    0 < magnitude.units ∧ ∃ plan, resolve "de" .compact = .ok plan ∧
      plan.format? (.finite false magnitude) = some "1000" ∧
      ∃ (words : CompactWords) (numeral : Numeral) (number : List Char) (word : String),
        (LocaleData.ofLocale "de").words .short = some words ∧
          plan.format? (.finite false magnitude) =
            some (signText .auto false numeral ++ String.ofList number ++ word) ∧
          IsDigitText numeral.characters ∧
          number.filter (· != (LocaleData.ofLocale "de").groupSeparator) =
            (numeral.integer ++
              if numeral.fraction.isEmpty then []
              else (LocaleData.ofLocale "de").decimalSeparator :: numeral.fraction) ∧
          IsCompactShown words magnitude numeral word := by
  intro magnitude
  have positive : 0 < magnitude.units := by decide +kernel
  have made : ∃ plan, resolve "de" .compact = .ok plan ∧
      plan.format? (.finite false magnitude) = some "1000" := by
    decide +kernel
  rcases made with ⟨plan, resolved, written⟩
  exact ⟨positive, plan, resolved, written,
    format?_compact_tier resolved rfl rfl rfl false positive⟩

/-- Half a unit below a million in German there is no word, although a million has one. -/
theorem format?_million_in_full :
    let magnitude : Magnitude := ⟨1999999 * 2 ^ 1073, by decide +kernel⟩
    ∃ plan, resolve "de" .compact = .ok plan ∧
      ((LocaleData.ofLocale "de").words .short).bind (wordOfTier? · 2) = some "\u00a0Mio." ∧
      (plan.digits? (.finite false magnitude)).map (fun digits => (digits.numeral, digits.word)) =
        some (⟨"1000000".toList, []⟩, "") ∧
      plan.format? (.finite false magnitude) = some "1.000.000" ∧
      plan.format? (.ofNat 1000000) = some "1\u00a0Mio." ∧
      ¬(⟨"1000000".toList, []⟩ : Numeral).value < 1000 ^ 2 := by
  intro magnitude
  decide +kernel

end NumberPlan

end LocalizedText
