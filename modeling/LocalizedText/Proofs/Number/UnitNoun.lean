import LocalizedText.Proofs.Keyed
import LocalizedText.Proofs.Number.ShownDigits

/-!
# The noun behind a number

The long name of a unit is the singular one behind the digit one alone. The digits are all that is
looked at: a word for a power of a thousand, or an exponent, may stand between them and the name.
So the number in front of a singular name denotes one exactly when neither changes what it denotes.
-/

namespace LocalizedText

namespace UnitNames

variable {unit : String} {names : UnitNames}

/-- A plural name does not end with the singular one, unless both are the same. -/
theorem not_isSuffix_plural (found : find? unit = some names)
    (differ : names.singular ≠ names.plural) {text : List Char}
    (ends : " ".toList ++ names.plural.toList <:+ text) : ¬names.singular.toList <:+ text := by
  have all : ∀ entry ∈ UnitNames.all, entry.2.singular ≠ entry.2.plural →
      entry.2.singular.toList.length ≤ (" ".toList ++ entry.2.plural.toList).length ∧
        ¬entry.2.singular.toList <:+ " ".toList ++ entry.2.plural.toList := by
    decide +kernel
  rcases all _ (Keyed.mem_of_lookup found) differ with ⟨length, apart⟩
  intro singular
  apply apart
  exact List.suffix_of_suffix_length_le singular ends length

end UnitNames

namespace NumberPlan

variable {locale text : String} {options : NumberOptions} {plan : NumberPlan} {value : Double}
  {digits : Digits}

/-- The first tier that a word stands for. -/
def tierOfWord (words : CompactWords) (word : String) : ℕ :=
  (List.range 5).findIdx fun tier => wordOfTier? words tier == some word

theorem tierOfWord_eq_zero_iff (words : CompactWords) {word : String} :
    tierOfWord words word = 0 ↔ word = "" := by
  rw [tierOfWord, List.findIdx_eq (by simp), ← eq_comm (b := word)]
  simp [wordOfTier?]

/-- What digits denote together with the word and the exponent behind them. -/
def denoted (plan : NumberPlan) (digits : Digits) : ℚ :=
  digits.numeral.value * 1000 ^ tierOfWord (plan.words.getD []) digits.word *
    10 ^ digits.exponent.getD 0

/-- No number has both a word and an exponent. -/
theorem word_or_exponent (found : plan.digits? value = some digits) :
    digits.word = "" ∨ digits.exponent = none := by
  cases form : plan.form with
  | standard =>
      simp only [digits?, form] at found
      rcases Option.map_eq_some_iff.mp found with ⟨numeral, -, rfl⟩
      exact .inl rfl
  | compact =>
      simp only [digits?, form] at found
      right
      rcases compact?_cases found with ⟨numeral, -, rfl⟩ | ⟨words, tier, -, settles⟩
      · rfl
      · cases settles <;> rfl
  | scientific =>
      simp only [digits?, form, scientific?] at found
      left
      split at found
      · rcases Option.map_eq_some_iff.mp found with ⟨numeral, -, rfl⟩
        rfl
      · rcases Option.bind_eq_some_iff.mp found with ⟨first, -, shown⟩
        split at shown
        · rcases Option.bind_eq_some_iff.mp shown with ⟨second, -, ⟨⟩⟩
          rfl
        · cases shown
          rfl

/-- The digit one denotes one if nothing behind it changes that. -/
theorem denoted_eq_one_iff (found : plan.digits? value = some digits)
    (one : digits.numeral = ⟨['1'], []⟩) :
    plan.denoted digits = 1 ↔ digits.word = "" ∧ digits.exponent.getD 0 = 0 := by
  have digit : digits.numeral.value = 1 := by
    rw [one]
    simp [Numeral.value, DecimalLiteral.digitsValue]
  rw [denoted, digit, one_mul]
  rcases word_or_exponent found with noWord | noExponent
  · rw [(tierOfWord_eq_zero_iff _).mpr noWord, pow_zero, one_mul,
      zpow_eq_one_iff_right₀ (by norm_num) (by norm_num)]
    exact (and_iff_right noWord).symm
  · rw [noExponent, Option.getD_none, zpow_zero, mul_one, and_iff_left rfl,
      ← tierOfWord_eq_zero_iff (plan.words.getD [])]
    exact (pow_right_injective₀ (by norm_num) (by norm_num)).eq_iff' (pow_zero 1000)

theorem numberText_of_one (one : digits.numeral = ⟨['1'], []⟩) :
    plan.numberText digits = ['1'] := by
  simp only [numberText, Numeral.render, one, List.isEmpty_nil, if_true]
  cases plan.groupingFor digits with
  | none => rfl
  | some group =>
      apply if_pos
      simp
      omega

theorem IsResolved.exists_names (resolved : plan.IsResolved locale options)
    (isUnit : options.style = .unit) :
    ∃ unit names, options.unit = some unit ∧ UnitNames.find? unit = some names ∧
      plan.affix = .unit names options.unitDisplay := by
  have affix := resolved.affix
  simp only [resolveStyle, isUnit] at affix
  split at affix
  · cases affix
  · next unit isName =>
      split at affix
      · cases affix
      · next names found =>
          split at affix
          · cases affix
          · exact ⟨unit, names, isName, found, by simp_all⟩

/--
The long name behind a number is the singular one exactly if the digits are the digit one alone.
Then the number is this digit with its word and exponent, and denotes one exactly if there is no
word and no exponent other than zero.
-/
theorem format?_singular_iff (resolved : resolve locale options = .ok plan)
    (isUnit : options.style = .unit) (isLong : options.unitDisplay = .long)
    (finite : value.isFinite = true) (written : plan.format? value = some text) :
    ∃ unit names digits,
      options.unit = some unit ∧ UnitNames.find? unit = some names ∧
        plan.digits? (plan.scaled value) = some digits ∧
        text = signText options.signDisplay value.isNegative digits.numeral ++
            String.ofList (plan.numberText digits) ++ digits.word ++ digits.exponentText ++
              unitText names .long digits.numeral ∧
        (names.singular ≠ names.plural →
          (names.singular.toList <:+ text.toList ↔ digits.numeral = ⟨['1'], []⟩)) ∧
        (digits.numeral = ⟨['1'], []⟩ → plan.numberText digits = ['1'] ∧
          (plan.denoted digits = 1 ↔ digits.word = "" ∧ digits.exponent.getD 0 = 0)) := by
  have settled := isResolved_of_resolve resolved
  rcases settled.exists_names isUnit with ⟨unit, names, isName, found, affix⟩
  rcases (format?_eq_some_iff finite).mp written with ⟨digits, isDigits, isText⟩
  rw [isLong] at affix
  have parts : text = signText options.signDisplay value.isNegative digits.numeral ++
      String.ofList (plan.numberText digits) ++ digits.word ++ digits.exponentText ++
        unitText names .long digits.numeral := by
    simp [isText, unsigned, writeDigits_eq, settled.sign, surroundings, affix, String.append_assoc]
  refine ⟨unit, names, digits, isName, found, isDigits, parts, ?_, ?_⟩
  · intro differ
    have ends : (unitText names .long digits.numeral).toList <:+ text.toList := by
      rw [parts, String.toList_append]
      exact List.suffix_append _ _
    constructor
    · intro singular
      by_contra other
      apply UnitNames.not_isSuffix_plural found differ _ singular
      simpa [unitText, other] using ends
    · intro one
      apply List.IsSuffix.trans _ ends
      simp [unitText, one]
  · intro one
    exact ⟨numberText_of_one one, denoted_eq_one_iff isDigits one⟩

/-- One kilometer is shown with the digit one alone in front of the singular name. -/
theorem format?_singular_iff_kilometer :
    let options : NumberOptions := { NumberOptions.ofUnit "kilometer" with unitDisplay := .long }
    let value := Double.ofNat 1
    options.style = .unit ∧ options.unitDisplay = .long ∧ value.isFinite = true ∧
      ∃ plan, resolve "en" options = .ok plan ∧ plan.format? value = some "1 kilometer" ∧
        ∃ digits, "1 kilometer" = signText .auto false digits.numeral ++
            String.ofList (plan.numberText digits) ++ digits.word ++ digits.exponentText ++
              " kilometer" ∧
          plan.numberText digits = ['1'] := by
  intro options value
  have made : ∃ plan, resolve "en" options = .ok plan ∧
      plan.format? value = some "1 kilometer" := by
    decide +kernel
  have finite : value.isFinite = true := by decide +kernel
  have positive : value.isNegative = false := by decide +kernel
  have known : UnitNames.find? "kilometer" =
      some ⟨"km", "km", "kilometer", "kilometers", false⟩ := by
    decide
  clear_value value
  rcases made with ⟨plan, resolved, written⟩
  rcases format?_singular_iff resolved rfl rfl finite written with
    ⟨unit, names, digits, isName, found, -, text, singular, alone⟩
  obtain rfl : "kilometer" = unit := by simpa [options, NumberOptions.ofUnit] using isName
  obtain rfl : ⟨"km", "km", "kilometer", "kilometers", false⟩ = names := by
    simpa [known] using found
  have one := (singular (by decide)).mp (by decide)
  refine ⟨rfl, rfl, finite, plan, resolved, written, digits, ?_, (alone one).1⟩
  simpa [options, NumberOptions.ofUnit, positive, unitText, one] using text

/-- A thousand meters are shown in front of the singular name. -/
theorem format?_thousand_singular :
    let options : NumberOptions := {
      NumberOptions.ofUnit "meter" with unitDisplay := .long, form := .compact }
    let value := Double.ofNat 1000
    UnitNames.find? "meter" = some ⟨"m", "m", "meter", "meters", false⟩ ∧
      ∃ plan digits, resolve "en" options = .ok plan ∧ plan.format? value = some "1K meter" ∧
        plan.digits? (plan.scaled value) = some digits ∧
        String.ofList (plan.numberText digits) ++ digits.word ++ digits.exponentText = "1K" ∧
        plan.denoted digits = 1000 := by
  intro options value
  have made : ∃ plan, resolve "en" options = .ok plan ∧ plan.format? value = some "1K meter" ∧
      tierOfWord (plan.words.getD []) "K" = 1 ∧
      (plan.digits? (plan.scaled value)).any (fun digits =>
        digits.numeral = ⟨['1'], []⟩ ∧ digits.word = "K" ∧ digits.exponent = none) = true := by
    decide +kernel
  clear_value value
  rcases made with ⟨plan, resolved, written, thousand, isSome⟩
  rcases (Option.any_eq_true _ _).mp isSome with ⟨digits, isDigits, parts⟩
  rcases of_decide_eq_true parts with ⟨one, word, exponent⟩
  refine ⟨by decide, plan, digits, resolved, written, isDigits, ?_, ?_⟩
  · simp [numberText_of_one one, word, Digits.exponentText, exponent]
  · simp [denoted, one, word, exponent, thousand, Numeral.value, DecimalLiteral.digitsValue]

end NumberPlan

end LocalizedText
