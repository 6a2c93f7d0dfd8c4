import LocalizedText.Number.Numeral
import Mathlib.Algebra.Order.Field.Power
import Mathlib.Algebra.Order.Field.Rat
import Mathlib.Data.List.TakeWhile
import Mathlib.Tactic.FieldSimp
import Mathlib.Tactic.Linarith
import Mathlib.Tactic.Positivity

/-!
# The values of digits

Sequences of decimal digits, decimals and numerals all denote rational numbers. Zeros in front of
digits do not count, and zeros at their end can be traded for the exponent. So the layout of a
numeral, with its point moved and its zeros dropped or filled in, does not change what it denotes.
-/

namespace LocalizedText

namespace DecimalLiteral

theorem digitsValue_append (left right : List Char) :
    digitsValue (left ++ right) = 10 ^ right.length * digitsValue left + digitsValue right := by
  have split : digitsValue (left ++ right) = Nat.ofDigitChars 10 right (digitsValue left) :=
    Nat.ofDigitChars_append (b := 10) (l := left) 0
  rw [split, Nat.ofDigitChars_eq_ofDigitChars_zero]
  rfl

theorem digitsValue_zeros_append (count : Nat) (digits : List Char) :
    digitsValue (List.replicate count '0' ++ digits) = digitsValue digits := by
  have zeros : digitsValue (List.replicate count '0') = 10 ^ count * 0 :=
    Nat.ofDigitChars_replicate_zero
  rw [digitsValue_append, zeros, Nat.mul_zero, Nat.mul_zero, Nat.zero_add]

theorem digitsValue_append_zeros (digits : List Char) (count : Nat) :
    digitsValue (digits ++ List.replicate count '0') = 10 ^ count * digitsValue digits := by
  have zeros : digitsValue (List.replicate count '0') = 10 ^ count * 0 :=
    Nat.ofDigitChars_replicate_zero
  rw [digitsValue_append, zeros, Nat.mul_zero, Nat.add_zero, List.length_replicate]

theorem digitsValue_toDigits (value : Nat) : digitsValue (Nat.toDigits 10 value) = value :=
  Nat.ofDigitChars_ten_toDigits

theorem digitsValue_singleton_le {digit : Char} (isDigit : digit.isDigit = true) :
    digitsValue [digit] ≤ 9 := by
  simp only [Char.isDigit, Bool.and_eq_true, decide_eq_true_eq] at isDigit
  have most : digit.toNat ≤ 57 := UInt32.le_iff_toNat_le.mp isDigit.2
  have zero : '0'.toNat = 48 := rfl
  simp only [digitsValue, List.foldl_cons, List.foldl_nil, zero]
  omega

theorem digitsValue_singleton_pos {digit : Char} (isDigit : digit.isDigit = true)
    (notZero : digit ≠ '0') : 0 < digitsValue [digit] := by
  simp only [Char.isDigit, Bool.and_eq_true, decide_eq_true_eq] at isDigit
  have least : 48 ≤ digit.toNat := UInt32.le_iff_toNat_le.mp isDigit.1
  have zero : '0'.toNat = 48 := rfl
  have apart : digit.toNat ≠ 48 := by
    intro same
    exact notZero (Char.toNat_inj.mp (same.trans zero.symm))
  simp only [digitsValue, List.foldl_cons, List.foldl_nil, zero]
  omega

/-- Digits denote less than the power of ten of their number. -/
theorem digitsValue_lt {digits : List Char} (all : ∀ digit ∈ digits, digit.isDigit = true) :
    digitsValue digits < 10 ^ digits.length := by
  induction digits with
  | nil => decide
  | cons digit rest inductionHypothesis =>
      have first := digitsValue_singleton_le (all digit List.mem_cons_self)
      have others := inductionHypothesis fun digit member => all digit (List.mem_cons_of_mem _ member)
      have split := digitsValue_append [digit] rest
      rw [List.singleton_append] at split
      rw [split, List.length_cons, pow_succ]
      have product := Nat.mul_le_mul_left (10 ^ rest.length) first
      omega

/-- Digits that do not start with a zero do not denote zero. -/
theorem digitsValue_pos {digits : List Char} (all : ∀ digit ∈ digits, digit.isDigit = true)
    (nonempty : digits ≠ []) (noLeadingZero : digits.head? ≠ some '0') : 0 < digitsValue digits := by
  cases digits with
  | nil => exact absurd rfl nonempty
  | cons digit rest =>
      have first := digitsValue_singleton_pos (all digit List.mem_cons_self)
        (by simpa using noLeadingZero)
      have split := digitsValue_append [digit] rest
      rw [List.singleton_append] at split
      have power : 0 < 10 ^ rest.length := Nat.pow_pos (by decide)
      have product := Nat.mul_pos power first
      omega

/-- The rational number that a literal denotes, apart from its sign. -/
def value (literal : DecimalLiteral) : ℚ :=
  literal.digits * 10 ^ literal.exponent

theorem value_ofParts (negative : Bool) (integer fraction : List Char) (exponent : Int) :
    (ofParts negative integer fraction exponent).value =
      digitsValue (integer ++ fraction) * 10 ^ (exponent - fraction.length) :=
  rfl

/-- A natural number has as many digits as the power of ten that it stays below says. -/
theorem pow_decimalLength {number : Nat} (positive : 0 < number) :
    10 ^ (decimalLength number - 1) ≤ number ∧ number < 10 ^ decimalLength number := by
  have lengthPos : 0 < decimalLength number := Nat.length_toDigits_pos
  constructor
  · by_contra below
    rcases Nat.eq_zero_or_pos (decimalLength number - 1) with single | more
    · rw [single] at below
      omega
    · have shorter : decimalLength number ≤ decimalLength number - 1 :=
        (Nat.length_toDigits_le_iff (by decide) more).mpr (Nat.lt_of_not_le below)
      omega
  · exact (Nat.length_toDigits_le_iff (by decide) lengthPos).mp (Nat.le_refl _)

end DecimalLiteral

/-- The rational number that a decimal denotes. -/
def Decimal.value (decimal : Decimal) : ℚ :=
  decimal.digits * 10 ^ decimal.exponent

namespace Numeral

theorem trimZeros_append (digits : List Char) :
    trimZeros digits ++ List.replicate (digits.length - (trimZeros digits).length) '0' =
      digits := by
  have whole := List.takeWhile_append_dropWhile (p := (· == '0')) (l := digits.reverse)
  have zeros : digits.reverse.takeWhile (· == '0') =
      List.replicate (digits.reverse.takeWhile (· == '0')).length '0' := by
    rw [List.eq_replicate_iff]
    refine ⟨rfl, ?_⟩
    intro digit member
    simpa using List.mem_takeWhile_imp member
  have back := congrArg List.reverse whole
  rw [List.reverse_append, List.reverse_reverse, zeros, List.reverse_replicate] at back
  have lengths := congrArg List.length back
  rw [List.length_append, List.length_replicate] at lengths
  unfold trimZeros
  rw [← lengths, Nat.add_sub_cancel_left]
  exact back

/-- Zeros at the end of digits can be traded for the exponent. -/
theorem value_trimZeros (digits : List Char) (point : Int) :
    (DecimalLiteral.digitsValue (trimZeros digits) : ℚ) * 10 ^ (point - (trimZeros digits).length) =
      DecimalLiteral.digitsValue digits * 10 ^ (point - digits.length) := by
  have split := trimZeros_append digits
  have lengths := congrArg List.length split
  rw [List.length_append, List.length_replicate] at lengths
  have values := congrArg DecimalLiteral.digitsValue split
  rw [DecimalLiteral.digitsValue_append_zeros] at values
  rw [← values, Nat.cast_mul, Nat.cast_pow, Nat.cast_ofNat, mul_comm ((10 : ℚ) ^ _), mul_assoc,
    ← zpow_natCast, ← zpow_add₀ (by norm_num)]
  congr 2
  omega

/-- Where the point stands among the digits decides what a numeral denotes. -/
theorem value_ofDigits (digits : List Char) (point : Int) :
    (DecimalLiteral.digitsValue ((ofDigits digits point).integer ++
        (ofDigits digits point).fraction) : ℚ) *
          10 ^ (-((ofDigits digits point).fraction.length : Int)) =
      DecimalLiteral.digitsValue digits * 10 ^ (point - digits.length) := by
  unfold ofDigits
  split
  · next front =>
      have zeros := DecimalLiteral.digitsValue_zeros_append ((-point).toNat + 1) digits
      rw [List.replicate_succ, List.cons_append] at zeros
      simp only [List.singleton_append, zeros, List.length_append, List.length_replicate]
      congr 2
      omega
  · next inside =>
      simp only
      rcases Nat.le_total digits.length point.toNat with all | some
      · rw [List.take_of_length_le all, List.drop_of_length_le all, List.append_nil,
          DecimalLiteral.digitsValue_append_zeros, Nat.cast_mul, Nat.cast_pow, Nat.cast_ofNat,
          mul_comm ((10 : ℚ) ^ _), mul_assoc, ← zpow_natCast, ← zpow_add₀ (by norm_num)]
        congr 2
        simp only [List.length_nil]
        omega
      · rw [Nat.sub_eq_zero_of_le some, List.replicate_zero, List.append_nil, List.take_append_drop,
          List.length_drop]
        congr 2
        omega

end Numeral

end LocalizedText
