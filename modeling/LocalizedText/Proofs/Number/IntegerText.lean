import LocalizedText.Message.Clause
import LocalizedText.Proofs.Number.Digits

/-!
# The text of an integer

An integer is written as its digits, with a sign in front when it is negative. Its text determines
it, and reading the text as an integer of 64 bits gives it back when it is one.
-/

namespace LocalizedText

namespace IntegerText

theorem toList_toString (value : Int) : (toString value).toList =
    (if value < 0 then ['-'] else []) ++ Nat.toDigits 10 value.natAbs := by
  change value.repr.toList = _
  rw [Int.repr_eq_if]
  split
  · next positive =>
      have natural : value.toNat = value.natAbs := by omega
      rw [if_neg (by omega), Nat.toList_repr, natural, List.nil_append]
  · next negative =>
      have natural : (-value).toNat = value.natAbs := by omega
      rw [if_pos (by omega), String.toList_append, Nat.toList_repr, natural]
      rfl

theorem mem_toString {value : Int} {character : Char}
    (member : character ∈ (toString value).toList) :
    character.isDigit = true ∨ character = '-' := by
  rw [toList_toString, List.mem_append] at member
  rcases member with sign | digit
  · right
    split at sign
    · exact List.mem_singleton.mp sign
    · cases sign
  · exact Or.inl (Nat.isDigit_of_mem_toDigits (by decide) (by decide) digit)

/-- An integer is determined by its text. -/
theorem toString_injective {left right : Int} (same : toString left = toString right) :
    left = right := by
  have sign (value : Int) : '-' ∈ (toString value).toList ↔ value < 0 := by
    rw [toList_toString, List.mem_append]
    constructor
    · rintro (sign | digit)
      · by_contra positive
        rw [if_neg positive] at sign
        cases sign
      · have isDigit := Nat.isDigit_of_mem_toDigits (by decide) (by decide) digit
        exact absurd isDigit (by decide)
    · intro negative
      simp [negative]
  have signs : left < 0 ↔ right < 0 := by rw [← sign, ← sign, same]
  have texts := congrArg String.toList same
  rw [toList_toString, toList_toString, if_congr signs rfl rfl, List.append_cancel_left_eq] at texts
  have naturals := congrArg DecimalLiteral.digitsValue texts
  rw [DecimalLiteral.digitsValue_toDigits, DecimalLiteral.digitsValue_toDigits] at naturals
  omega


theorem foldl_digits {digits : List Char} (areDigits : ∀ digit ∈ digits, digit.isDigit = true)
    (value : Nat) :
    digits.foldl (fun value digit => 10 * value + ((digit.toNat : Int) - '0'.toNat)) (value : Int) =
      Nat.ofDigitChars 10 digits value := by
  induction digits generalizing value with
  | nil => rfl
  | cons digit digits inductionHypothesis =>
      have atLeastZero : '0'.toNat ≤ digit.toNat := by
        have isDigit := areDigits digit (List.mem_cons_self ..)
        simp only [Char.isDigit, Bool.and_eq_true, decide_eq_true_eq] at isDigit
        exact isDigit.1
      have others := inductionHypothesis (fun other member =>
        areDigits other (List.mem_cons_of_mem _ member)) (10 * value + (digit.toNat - '0'.toNat))
      have step : ((10 * value + (digit.toNat - '0'.toNat) : Nat) : Int) =
          10 * value + ((digit.toNat : Int) - '0'.toNat) := by omega
      rw [List.foldl_cons, Nat.ofDigitChars_cons, ← others, step]

theorem toDigits_ne_sign {number : Nat} {sign : Char} {digits : List Char}
    (notDigit : sign.isDigit = false) : Nat.toDigits 10 number ≠ sign :: digits := by
  intro same
  have member : sign ∈ Nat.toDigits 10 number := by simp [same]
  have isDigit := Nat.isDigit_of_mem_toDigits (by decide) (by decide) member
  rw [notDigit] at isDigit
  cases isDigit

/-- Reading the text of an integer of 64 bits gives it back. -/
theorem readInteger?_toString {value : Int} (least : -(2 ^ 63) ≤ value)
    (greatest : value < 2 ^ 63) :
    Message.readInteger? (toString value).toList = some value := by
  have areDigits : ∀ digit ∈ Nat.toDigits 10 value.natAbs, digit.isDigit = true := by
    intro digit member
    exact Nat.isDigit_of_mem_toDigits (by decide) (by decide) member
  have fold := foldl_digits areDigits 0
  rw [Nat.ofDigitChars_ten_toDigits, Nat.cast_zero] at fold
  have accepted : ¬((Nat.toDigits 10 value.natAbs).isEmpty ||
      !(Nat.toDigits 10 value.natAbs).all Char.isDigit) = true := by
    simpa [Nat.toDigits_ne_nil] using areDigits
  rw [toList_toString]
  by_cases negative : value < 0
  · have result : -(value.natAbs : Int) = value := by omega
    rw [if_pos negative]
    unfold Message.readInteger?
    simp only [List.cons_append, List.nil_append]
    rw [if_neg accepted]
    simp only [if_true]
    rw [fold, result, if_pos ⟨least, greatest⟩]
  · have result : (value.natAbs : Int) = value := by omega
    rw [if_neg negative, List.nil_append]
    unfold Message.readInteger?
    split
    next negativeRead digitsRead parts =>
    split at parts
    · next same => exact absurd same (toDigits_ne_sign (by decide))
    · next same => exact absurd same (toDigits_ne_sign (by decide))
    · cases parts
      rw [if_neg accepted]
      simp only [Bool.false_eq_true, if_false]
      rw [fold, result, if_pos ⟨least, greatest⟩]

end IntegerText

end LocalizedText
