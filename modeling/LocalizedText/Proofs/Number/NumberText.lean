import LocalizedText.Proofs.Number.Acceptance
import LocalizedText.Proofs.Number.Sign
import LocalizedText.Proofs.Number.StandardForm

/-!
# The number in a text

The text of a finite number is its sign, what the style writes in front, the number with its
separators, the word for a power of a thousand, the exponent, and what the style writes behind.
Whatever a plan rounds by, a finite double becomes a numeral of digits. Such a numeral reaches a
natural number exactly when its integer part does, so that a bound on its digits is one on what it
denotes.
-/

namespace LocalizedText

/-- A text is made of ASCII digits. -/
def IsDigitText (text : List Char) : Prop :=
  text ≠ [] ∧ ∀ character ∈ text, character.isDigit = true

namespace Numeral

variable {numeral : Numeral} {magnitude : Magnitude} {minimum maximum : ℕ}

/-- The characters before and after the point. -/
def characters (numeral : Numeral) : List Char :=
  numeral.integer ++ numeral.fraction

theorem characters_padInteger (numeral : Numeral) (minimum : ℕ) :
    (numeral.padInteger minimum).characters =
      List.replicate (minimum - numeral.integer.length) '0' ++ numeral.characters := by
  simp [characters, padInteger]

theorem isDigitText_padInteger (digits : IsDigitText numeral.characters) (minimum : ℕ) :
    IsDigitText (numeral.padInteger minimum).characters := by
  rw [characters_padInteger]
  refine ⟨by simp [digits.1], ?_⟩
  intro character member
  rcases List.mem_append.mp member with zero | digit
  · rw [List.eq_of_mem_replicate zero]
    rfl
  · exact digits.2 character digit

theorem isDigitText_fixed (negative : Bool) (magnitude : Magnitude) (ordered : minimum ≤ maximum) :
    IsDigitText (fixed (.finite negative magnitude) minimum maximum).characters := by
  have trimmed := isTrimmed_fixed negative magnitude ordered 0
  have nonempty : (fixed (.finite negative magnitude) minimum maximum).integer ≠ [] := by
    simpa [padInteger, List.length_pos_iff] using trimmed.integer_pos
  refine ⟨by simp [characters, nonempty], ?_⟩
  intro character member
  apply trimmed.isDigit
  simpa [padInteger, characters] using member

theorem isDigitText_significant? (least : 1 ≤ minimum) (ordered : minimum ≤ maximum)
    (found : significant? (.finite false magnitude) minimum maximum = some numeral) :
    IsDigitText numeral.characters := by
  have positive : 0 < magnitude.units := by
    by_contra zero
    simp [significant?, show magnitude.units = 0 by omega, show minimum ≠ 0 by omega] at found
  rcases significant?_isSignificant positive minimum (least.trans ordered) with
    ⟨own, isOwn, -, -, layout⟩
  obtain rfl : own = numeral := by simpa [isOwn] using found
  have nonempty : own.integer ≠ [] := by
    rcases lt_or_ge own.value 1 with below | above
    · simp [layout.belowOne below]
    · exact (layout.noLeadingZero above).1
  exact ⟨by simp [characters, nonempty], layout.isDigit⟩

/-- A numeral reaches a natural number when what it denotes does. -/
theorem atLeast_iff (digits : IsDigitText numeral.characters) {bound : ℕ} :
    numeral.atLeast bound = true ↔ (bound : ℚ) ≤ numeral.value := by
  have isDigit := digits.2
  rw [characters, List.forall_mem_append] at isDigit
  rcases isDigit with ⟨integerDigits, fractionDigits⟩
  have fraction := DecimalLiteral.digitsValue_lt fractionDigits
  have power : (0 : ℚ) < 10 ^ numeral.fraction.length := by positivity
  rw [atLeast, if_pos (List.all_eq_true.mpr integerDigits), decide_eq_true_eq, value,
    le_div_iff₀ power, DecimalLiteral.digitsValue_append]
  generalize DecimalLiteral.digitsValue numeral.integer = integer
  generalize DecimalLiteral.digitsValue numeral.fraction = rest at fraction ⊢
  norm_cast
  generalize 10 ^ numeral.fraction.length = unit at fraction ⊢
  constructor
  · intro reached
    have scaled := Nat.mul_le_mul_left unit reached
    rw [Nat.mul_comm bound]
    omega
  · intro reached
    by_contra below
    have scaled := Nat.mul_le_mul_left unit (show integer + 1 ≤ bound by omega)
    rw [Nat.mul_comm bound] at reached
    rw [Nat.mul_add] at scaled
    omega

theorem lt_of_atLeast_eq_false (digits : IsDigitText numeral.characters) {bound : ℕ}
    (below : numeral.atLeast bound = false) : numeral.value < bound := by
  rw [← not_le, ← atLeast_iff digits, below]
  exact Bool.false_ne_true

end Numeral

namespace NumberPlan

variable {locale text : String} {options : NumberOptions} {plan : NumberPlan} {value : Double}
  {magnitude : Magnitude} {numeral : Numeral} {digits : Digits}

/-- A finite double is rounded to digits, if at all. -/
theorem isDigitText_of_round? (consistent : plan.rounding.IsConsistent)
    (found : plan.round? (.finite false magnitude) = some numeral) :
    IsDigitText numeral.characters := by
  simp only [round?, Option.map_eq_some_iff] at found
  rcases found with ⟨rounded, isRounded, rfl⟩
  apply Numeral.isDigitText_padInteger
  cases rounding : plan.rounding with
  | fraction minimum maximum =>
      rw [rounding] at consistent isRounded
      cases isRounded
      exact Numeral.isDigitText_fixed false magnitude consistent.1
  | significant minimum maximum =>
      rw [rounding] at consistent isRounded
      exact Numeral.isDigitText_significant? consistent.1 consistent.2.1 isRounded
  | compactAutomatic =>
      rw [rounding] at isRounded
      simp only at isRounded
      split at isRounded
      · cases isRounded
        exact Numeral.isDigitText_fixed false magnitude le_rfl
      · exact Numeral.isDigitText_significant? le_rfl one_le_two isRounded

/-- The number itself, with its separators. -/
def numberText (plan : NumberPlan) (digits : Digits) : List Char :=
  digits.numeral.render (plan.groupingFor digits) plan.data.decimalSeparator

/-- The exponent behind a number, if there is one. -/
def Digits.exponentText (digits : Digits) : String :=
  match digits.exponent with
  | none => ""
  | some exponent => s!"E{exponent}"

theorem writeDigits_eq (plan : NumberPlan) (digits : Digits) :
    plan.writeDigits digits =
      String.ofList (plan.numberText digits) ++ digits.word ++ digits.exponentText :=
  rfl

/-- Groups are separated by the separator of the locale. -/
theorem separator_of_groupingFor {group : Char × ℕ} (isGroup : group ∈ plan.groupingFor digits) :
    group.1 = plan.data.groupSeparator := by
  unfold groupingFor at isGroup
  split at isGroup
  · cases isGroup
    rfl
  · cases isGroup

/-- Without its group separators a number is its digits with the decimal separator. -/
theorem filter_numberText (isData : plan.data = LocaleData.ofLocale locale)
    (isDigit : IsDigitText digits.numeral.characters) :
    (plan.numberText digits).filter (· != plan.data.groupSeparator) =
      digits.numeral.integer ++
        if digits.numeral.fraction.isEmpty then []
        else plan.data.decimalSeparator :: digits.numeral.fraction := by
  rcases LocaleData.separators_ofLocale locale with ⟨groupNotDigit, -, apart⟩
  rw [← isData] at groupNotDigit apart
  apply Numeral.filter_render groupNotDigit apart isDigit.2
  intro group isGroup
  exact separator_of_groupingFor isGroup

end NumberPlan

end LocalizedText
