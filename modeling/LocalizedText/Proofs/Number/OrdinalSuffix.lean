import LocalizedText.Proofs.Message.Faithful
import LocalizedText.Proofs.Number.WholeText

/-!
# English ordinal suffixes

The suffix of an English ordinal is the one for the last digits of the number itself. The digits in
front of it are those that are shown, which may end in a zero in place of the number's last digit.
The suffix is then wrong unless it is the usual one, and numbers beyond 64 bits have that in any
case, as the greatest number of 64 bits has it.
-/

namespace LocalizedText

/-- The suffix that the last digits of a text call for. -/
def englishSuffix (digits : List Char) : String :=
  if ['1', '1'] <:+ digits ∨ ['1', '2'] <:+ digits ∨ ['1', '3'] <:+ digits then "th"
  else if ['1'] <:+ digits then "st"
  else if ['2'] <:+ digits then "nd"
  else if ['3'] <:+ digits then "rd"
  else "th"

section Digits

variable {number : ℕ}

theorem digitChar_inj {left right : ℕ} (leftDigit : left < 10) (rightDigit : right < 10) :
    left.digitChar = right.digitChar ↔ left = right := by
  constructor
  · intro same
    have codes := congrArg Char.toNat same
    rw [Nat.toNat_digitChar_of_lt_ten leftDigit, Nat.toNat_digitChar_of_lt_ten rightDigit] at codes
    omega
  · exact congrArg Nat.digitChar

theorem singleton_suffix_toDigits_iff (number : ℕ) {digit : ℕ} (isDigit : digit < 10) :
    [digit.digitChar] <:+ Nat.toDigits 10 number ↔ number % 10 = digit := by
  obtain ⟨front, digits⟩ : ∃ front,
      Nat.toDigits 10 number = front ++ [(number % 10).digitChar] := by
    rcases lt_or_ge number 10 with small | large
    · exact ⟨[], by rw [Nat.toDigits_of_lt_base small, Nat.mod_eq_of_lt small, List.nil_append]⟩
    · exact ⟨_, Nat.toDigits_of_base_le (by decide) large⟩
  rw [digits, List.singleton_suffix_append_singleton_iff,
    digitChar_inj isDigit (Nat.mod_lt number (by decide)), eq_comm]

theorem pair_suffix_toDigits_iff (number : ℕ) {ten digit : ℕ} (isTen : ten < 10)
    (positive : 0 < ten) (isDigit : digit < 10) :
    [ten.digitChar, digit.digitChar] <:+ Nat.toDigits 10 number ↔
      number % 100 = 10 * ten + digit := by
  rcases lt_or_ge number 10 with small | large
  · apply iff_of_false
    · intro two
      have shorter := two.length_le
      rw [Nat.toDigits_of_lt_base small] at shorter
      simp at shorter
    · omega
  · have split (front : List Char) (last : Char) :
        [ten.digitChar, digit.digitChar] <:+ front ++ [last] ↔
          [ten.digitChar] <:+ front ∧ digit.digitChar = last := by
      simp only [← List.reverse_prefix, List.reverse_append, List.reverse_cons, List.reverse_nil,
        List.nil_append, List.cons_append, List.cons_prefix_cons, and_comm]
    rw [Nat.toDigits_of_base_le (by decide) large, split, singleton_suffix_toDigits_iff _ isTen,
      digitChar_inj isDigit (Nat.mod_lt number (by decide))]
    omega

/-- The English rule goes by the last digits of a number. -/
theorem suffix_categorize (number : ℕ) :
    OrdinalRule.english.suffix (OrdinalRule.english.categorize number) =
      englishSuffix (Nat.toDigits 10 number) := by
  have one : ['1'] <:+ Nat.toDigits 10 number ↔ number % 10 = 1 :=
    singleton_suffix_toDigits_iff number (show 1 < 10 by decide)
  have two : ['2'] <:+ Nat.toDigits 10 number ↔ number % 10 = 2 :=
    singleton_suffix_toDigits_iff number (show 2 < 10 by decide)
  have three : ['3'] <:+ Nat.toDigits 10 number ↔ number % 10 = 3 :=
    singleton_suffix_toDigits_iff number (show 3 < 10 by decide)
  have eleven : ['1', '1'] <:+ Nat.toDigits 10 number ↔ number % 100 = 11 :=
    pair_suffix_toDigits_iff number (show 1 < 10 by decide) (by decide) (show 1 < 10 by decide)
  have twelve : ['1', '2'] <:+ Nat.toDigits 10 number ↔ number % 100 = 12 :=
    pair_suffix_toDigits_iff number (show 1 < 10 by decide) (by decide) (show 2 < 10 by decide)
  have thirteen : ['1', '3'] <:+ Nat.toDigits 10 number ↔ number % 100 = 13 :=
    pair_suffix_toDigits_iff number (show 1 < 10 by decide) (by decide) (show 3 < 10 by decide)
  have teens : 11 ≤ number % 100 ∧ number % 100 ≤ 13 ↔
      number % 100 = 11 ∨ number % 100 = 12 ∨ number % 100 = 13 := by
    omega
  simp only [englishSuffix, one, two, three, eleven, twelve, thirteen, OrdinalRule.categorize,
    teens]
  split_ifs <;> rfl

theorem englishSuffix_of_ten (ten : 10 ∣ number) :
    englishSuffix (Nat.toDigits 10 number) = "th" := by
  have last : number % 10 = 0 := Nat.mod_eq_zero_of_dvd ten
  have usual : OrdinalRule.english.categorize number = .other := by
    simp [OrdinalRule.categorize, last]
  rw [← suffix_categorize, usual]
  rfl

end Digits

/-- What a formatter of ordinals can be called for. -/
inductive OrdinalCall where
  | format (value : Double) (locale : String)
  | category (value : Double) (locale : String)
  | clear

namespace OrdinalFormatter

variable {native : Bool} {formatter : OrdinalFormatter} {locale : String} {magnitude : Magnitude}

/-- A new formatter, with native rules or without. -/
def ofMode (native : Bool) (capacity : ℕ) : OrdinalFormatter :=
  if native then ofCapacity capacity else manual

def perform (formatter : OrdinalFormatter) : OrdinalCall → OrdinalFormatter
  | .format value locale => (formatter.format value locale).2
  | .category value locale => (formatter.category value locale).2
  | .clear => formatter.clear

def after (formatter : OrdinalFormatter) (calls : List OrdinalCall) : OrdinalFormatter :=
  calls.foldl perform formatter

theorem isFaithful_ofMode (native : Bool) (capacity : ℕ) :
    (ofMode native capacity).IsFaithful native := by
  cases native with
  | false => exact isFaithful_manual
  | true => exact isFaithful_ofCapacity capacity

theorem IsFaithful.perform (faithful : formatter.IsFaithful native) (call : OrdinalCall) :
    (formatter.perform call).IsFaithful native := by
  cases call with
  | format value locale => exact (faithful.format value locale).2
  | category value locale => exact (faithful.category value locale).2
  | clear => exact faithful.clear

theorem IsFaithful.after (faithful : formatter.IsFaithful native) (calls : List OrdinalCall) :
    (formatter.after calls).IsFaithful native := by
  induction calls generalizing formatter with
  | nil => exact faithful
  | cons call calls ih => exact ih (faithful.perform call)

/-- With native rules and without, English has its own rule. -/
theorem ruleFor_english (english : Locale.language locale = "en") (native : Bool) :
    ruleFor native locale = .english := by
  cases native <;> simp [ruleFor, OrdinalRule.ofLocale, OrdinalRule.manualOfLocale, english]

/-- The suffix behind what is shown for a whole number is right, unless a last digit is missing. -/
theorem englishSuffix_shown_iff {number shown : ℕ} (shows : ShowsWhole number shown) :
    englishSuffix (Nat.toDigits 10 (min number OrdinalRule.greatest)) =
        englishSuffix (Nat.toDigits 10 shown) ↔
      shown = number ∨ 2 ^ 64 ≤ number ∨ englishSuffix (Nat.toDigits 10 number) = "th" := by
  rcases lt_or_ge number (2 ^ 64) with fits | beyond
  · have same : min number OrdinalRule.greatest = number := by
      rw [OrdinalRule.greatest]
      omega
    rw [same]
    rcases shows.same_or_ten with rfl | ten
    · exact iff_of_true rfl (.inl rfl)
    · rw [englishSuffix_of_ten ten]
      constructor
      · exact fun usual => .inr (.inr usual)
      · rintro (rfl | large | usual)
        · exact englishSuffix_of_ten ten
        · omega
        · exact usual
  · have greatest : min number OrdinalRule.greatest = OrdinalRule.greatest := by
      rw [OrdinalRule.greatest]
      omega
    have usual : OrdinalRule.english.categorize OrdinalRule.greatest = .other := by decide
    rw [greatest, ← suffix_categorize, usual, englishSuffix_of_ten (shows.ten (by omega))]
    exact iff_of_true rfl (.inr (.inl beyond))

/--
An English ordinal below `10 ^ 21`, native or manual and whatever was asked before, is the digits
that are shown for the number and the suffix for the last digits of the number itself, or of the
greatest one of 64 bits. The digits are those of the number below `2 ^ 54`, and else they are unless
they end in a zero. So the suffix is the one for the last digits that are shown exactly if they are
the digits of the number, the number is beyond 64 bits, or its suffix is the usual one.
-/
theorem format_english_iff (native : Bool) (capacity : ℕ) (calls : List OrdinalCall)
    (english : Locale.language locale = "en") (negative : Bool)
    (isIntegral : magnitude.isIntegral = true) (small : magnitude.value < 10 ^ 21) :
    ∃ shown : ℕ, ∃ suffix : String,
      (((ofMode native capacity).after calls).format (.finite negative magnitude) locale).1 =
          (Double.finite negative magnitude).display ++ suffix ∧
        (Double.finite negative magnitude).display =
          (if (Double.finite negative magnitude).isBelowZero then "-" else "") ++
            String.ofList (Nat.toDigits 10 shown) ∧
        (shown = magnitude.integerPart ∨ 10 ∣ shown) ∧
        (magnitude.integerPart < 2 ^ 54 → shown = magnitude.integerPart) ∧
        suffix = englishSuffix
          (Nat.toDigits 10 (min magnitude.integerPart OrdinalRule.greatest)) ∧
        (suffix = englishSuffix (Nat.toDigits 10 shown) ↔
          shown = magnitude.integerPart ∨ 2 ^ 64 ≤ magnitude.integerPart ∨
            englishSuffix (Nat.toDigits 10 magnitude.integerPart) = "th") := by
  have faithful := (isFaithful_ofMode native capacity).after calls
  rcases Double.exists_display negative isIntegral small with ⟨shown, shows, display⟩
  refine ⟨shown, _, ?_, display, shows.same_or_ten, shows.same, rfl,
    englishSuffix_shown_iff shows⟩
  have category : OrdinalRule.english.category (.finite negative magnitude) =
      OrdinalRule.english.categorize (min magnitude.integerPart OrdinalRule.greatest) :=
    if_pos isIntegral
  rw [(faithful.format _ _).1, ruleFor_english english, category, suffix_categorize]
  exact if_pos rfl

/-- A negative number keeps its sign, and the digits 11 at its end call for the usual suffix. -/
theorem format_english_iff_eleven :
    let magnitude : Magnitude := ⟨111 * unitsPerOne, by decide +kernel⟩
    Locale.language "en-US" = "en" ∧ magnitude.isIntegral = true ∧ magnitude.value < 10 ^ 21 ∧
      (((ofMode true 100).after [.category .zero "fr", .clear]).format (.finite true magnitude)
        "en-US").1 = "-111th" := by
  intro magnitude
  have english : Locale.language "en-US" = "en" := by decide +kernel
  have integerPart : magnitude.integerPart = 111 := Nat.mul_div_cancel _ Magnitude.unitsPerOne_pos
  have isIntegral : magnitude.isIntegral = true := by
    rw [Magnitude.isIntegral_iff, integerPart]
  have small : magnitude.value < 10 ^ 21 := by
    rw [Magnitude.value_of_isIntegral isIntegral, integerPart]
    norm_num
  have below : (Double.finite true magnitude).isBelowZero = true := by decide +kernel
  rcases format_english_iff true 100 [.category .zero "fr", .clear] english true isIntegral small
    with ⟨shown, suffix, text, display, -, same, isSuffix, -⟩
  rw [integerPart] at same isSuffix
  refine ⟨english, isIntegral, small, ?_⟩
  rw [text, display, below, isSuffix, same (by decide)]
  decide +kernel

/-- A number that ends in 2 and is shown with a zero at its end. -/
theorem format_english_second :
    let value := Double.ofNat 18014398509481992
    value.isIntegral = true ∧ value.display = "18014398509481990" ∧
      englishSuffix "18014398509481990".toList = "th" ∧
      ((ofCapacity usualCapacity).format value "en").1 = "18014398509481990nd" ∧
      (manual.format value "en").1 = "18014398509481990nd" := by
  intro value
  have finite : value.isFinite = true := by decide +kernel
  have display : value.display = "18014398509481990" := by decide +kernel
  have category : OrdinalRule.english.category value = .two := by decide +kernel
  have integral : value.isIntegral = true := by decide +kernel
  clear_value value
  have english : Locale.language "en" = "en" := by decide +kernel
  refine ⟨integral, display, by decide, ?_, ?_⟩
  · rw [((isFaithful_ofCapacity usualCapacity).format value "en").1, if_pos finite,
      ruleFor_english english, category, display]
    rfl
  · rw [(isFaithful_manual.format value "en").1, if_pos finite, ruleFor_english english, category,
      display]
    rfl

end OrdinalFormatter

end LocalizedText
