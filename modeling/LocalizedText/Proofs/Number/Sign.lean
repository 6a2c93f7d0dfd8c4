import LocalizedText.Proofs.Number.Plan

/-!
# Signs

The digits of a number come from its magnitude alone, and so does all that is written around them.
Its sign is decided last, from the sign bit and, where zero has none, from the rounded digits. So
opposite numbers have the same text up to what stands in front of it.
-/

namespace LocalizedText

namespace Double

def opposite : Double → Double
  | finite negative magnitude => finite (!negative) magnitude
  | infinite negative => infinite (!negative)
  | notANumber => notANumber

@[simp]
theorem abs_opposite (value : Double) : value.opposite.abs = value.abs := by
  cases value <;> rfl

@[simp]
theorem isFinite_opposite (value : Double) : value.opposite.isFinite = value.isFinite := by
  cases value <;> rfl

end Double

/-- Every character before and after the point is a zero. -/
def Numeral.HasOnlyZeros (numeral : Numeral) : Prop :=
  ∀ digit ∈ numeral.integer ++ numeral.fraction, digit = '0'

theorem Numeral.isZero_iff {numeral : Numeral} :
    numeral.isZero = true ↔ numeral.HasOnlyZeros := by
  simp only [isZero, HasOnlyZeros, List.all_eq_true, beq_iff_eq]

namespace NumberPlan

/-- What may stand in front of a number as its sign, when its digits are rounded to a numeral. -/
structure IsSign (display : SignDisplay) (negative : Bool) (numeral : Numeral) (sign : String) :
    Prop where
  isMark : sign = "" ∨ sign = "-" ∨ sign = "+"
  minus : sign = "-" → negative = true
  plus : sign = "+" → negative = false
  never : display = .never → sign = ""
  always : display = .always → sign ≠ ""
  auto : display = .auto → (sign = "-" ↔ negative = true) ∧ sign ≠ "+"
  exceptZero : display = .exceptZero → (sign = "" ↔ numeral.HasOnlyZeros)

variable {locale text : String} {options : NumberOptions} {plan : NumberPlan} {value : Double}

theorem isSign_signText (display : SignDisplay) (negative : Bool) (numeral : Numeral) :
    IsSign display negative numeral (signText display negative numeral) := by
  cases display with
  | auto => cases negative <;> constructor <;> simp [signText]
  | never => constructor <;> simp [signText]
  | always => cases negative <;> constructor <;> simp [signText]
  | exceptZero =>
      -- The digits count only here, and a number that is not shown as zero has a sign.
      have zero := numeral.isZero_iff
      cases isZero : numeral.isZero with
      | true =>
          have digits := zero.mp isZero
          constructor <;> simp [signText, isZero, digits]
      | false =>
          have digits : ¬numeral.HasOnlyZeros := by simp [← zero, isZero]
          cases negative <;> constructor <;> simp [signText, isZero, digits]

/-- What is shown of a number does not depend on its sign. -/
theorem scaled_opposite (plan : NumberPlan) (value : Double) :
    plan.scaled value.opposite = plan.scaled value := by
  simp only [scaled, Double.abs_opposite]

/-- What is written after the sign. -/
def unsigned (plan : NumberPlan) (digits : Digits) : String :=
  (plan.surroundings digits.numeral).1 ++ plan.writeDigits digits ++
    (plan.surroundings digits.numeral).2

/-- A finite number is written as its sign and then what does not depend on the sign. -/
theorem format?_eq_some_iff (finite : value.isFinite = true) :
    plan.format? value = some text ↔
      ∃ digits, plan.digits? (plan.scaled value) = some digits ∧
        text = signText plan.sign value.isNegative digits.numeral ++ plan.unsigned digits := by
  simp only [format?, if_pos finite, Option.map_eq_some_iff, unsigned, String.append_assoc,
    eq_comm (b := text)]

/--
A finite number that has a text has the same text as its opposite after a sign in front of each,
which is the one that its sign bit and the rounded digits call for.
-/
theorem format?_opposite (resolved : resolve locale options = .ok plan)
    (finite : value.isFinite = true) (written : plan.format? value = some text) :
    ∃ (digits : Digits) (sign oppositeSign : String),
      plan.digits? (plan.scaled value) = some digits ∧
        text = sign ++ plan.unsigned digits ∧
        plan.format? value.opposite = some (oppositeSign ++ plan.unsigned digits) ∧
        IsSign options.signDisplay value.isNegative digits.numeral sign ∧
        IsSign options.signDisplay value.opposite.isNegative digits.numeral oppositeSign := by
  rcases (format?_eq_some_iff finite).mp written with ⟨digits, isDigits, isText⟩
  have opposite : plan.format? value.opposite = some
      (signText plan.sign value.opposite.isNegative digits.numeral ++ plan.unsigned digits) := by
    apply (format?_eq_some_iff (by rwa [Double.isFinite_opposite])).mpr
    exact ⟨digits, by rwa [scaled_opposite], rfl⟩
  rw [(isResolved_of_resolve resolved).sign] at isText opposite
  exact ⟨digits, _, _, isDigits, isText, opposite, isSign_signText _ _ _, isSign_signText _ _ _⟩

/-- A small loss in percent, in German, where numbers that round to zero have no sign. -/
theorem format?_opposite_percent :
    let options : NumberOptions := { style := .percent, signDisplay := .exceptZero }
    let value : Double := .finite true ⟨2 ^ 1063, by decide +kernel⟩
    ∃ plan, resolve "de" options = .ok plan ∧ value.isFinite = true ∧
      plan.format? value = some "0\u00a0%" ∧
      ∃ (digits : Digits) (sign oppositeSign : String),
        plan.digits? (plan.scaled value) = some digits ∧
          "0\u00a0%" = sign ++ plan.unsigned digits ∧
          plan.format? value.opposite = some (oppositeSign ++ plan.unsigned digits) ∧
          IsSign .exceptZero true digits.numeral sign ∧
          IsSign .exceptZero false digits.numeral oppositeSign := by
  intro options value
  have evaluated : (resolve "de" options).toOption.any
      (fun plan => plan.format? value = some "0\u00a0%") = true := by
    decide +kernel
  cases resolved : resolve "de" options with
  | error failure =>
      rw [resolved] at evaluated
      cases evaluated
  | ok plan =>
      rw [resolved] at evaluated
      have written := of_decide_eq_true evaluated
      exact ⟨plan, rfl, rfl, written, format?_opposite resolved rfl written⟩

end NumberPlan

end LocalizedText
