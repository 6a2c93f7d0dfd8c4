import LocalizedText.Number.Text
import LocalizedText.Proofs.Number.Digits
import LocalizedText.Proofs.Text.Span

/-!
# What the text of a decimal denotes

A positive decimal is written positionally or with an exponent. Either way, reading its text gives a
literal of the same value, whatever the layout is.
-/

namespace LocalizedText

namespace Double

section Reading

variable {integer fraction rest : List Char}

/-- Reading digits, a point and digits leaves the exponent to be read. -/
theorem readNumeral?_point (negative : Bool) (nonempty : integer ≠ [])
    (integerDigits : ∀ digit ∈ integer, digit.isDigit = true)
    (fractionDigits : ∀ digit ∈ fraction, digit.isDigit = true)
    (stop : Text.Stops Char.isDigit rest) :
    readNumeral? negative (integer ++ '.' :: (fraction ++ rest)) =
      (readExponent? rest).map (DecimalLiteral.ofParts negative integer fraction) := by
  have pointStop : Text.Stops Char.isDigit ('.' :: (fraction ++ rest)) :=
    Text.stops_cons (by decide)
  simp [readNumeral?, Text.takeWhile_of_stops integerDigits pointStop,
    Text.dropWhile_of_stops integerDigits pointStop, Text.takeWhile_of_stops fractionDigits stop,
    Text.dropWhile_of_stops fractionDigits stop, nonempty]

theorem readNumeral?_whole (negative : Bool) (nonempty : integer ≠ [])
    (integerDigits : ∀ digit ∈ integer, digit.isDigit = true) (stop : Text.Stops Char.isDigit rest)
    (noPoint : rest.head? ≠ some '.') :
    readNumeral? negative (integer ++ rest) =
      (readExponent? rest).map (DecimalLiteral.ofParts negative integer []) := by
  simp only [readNumeral?, Text.takeWhile_of_stops integerDigits stop,
    Text.dropWhile_of_stops integerDigits stop]
  cases rest with
  | nil => simp [nonempty]
  | cons character rest =>
      have different : character ≠ '.' := by simpa using noPoint
      simp [nonempty, different]

/-- The text of an exponent is read as the exponent. -/
theorem readExponent?_exponentText (exponent : Int) :
    readExponent? ('e' :: DoubleText.exponentText exponent) = some exponent := by
  have digits : ∀ digit ∈ Nat.toDigits 10 exponent.natAbs, digit.isDigit = true := by
    intro digit member
    exact Nat.isDigit_of_mem_toDigits (by decide) (by decide) member
  have all : (Nat.toDigits 10 exponent.natAbs).all Char.isDigit = true := by
    rw [List.all_eq_true]
    exact digits
  have nonempty : Nat.toDigits 10 exponent.natAbs ≠ [] := Nat.toDigits_ne_nil
  unfold readExponent? DoubleText.exponentText
  by_cases below : exponent < 0
  · have sign : -(exponent.natAbs : Int) = exponent := by omega
    simpa [below, nonempty, all, DecimalLiteral.digitsValue_toDigits] using sign
  · have sign : (exponent.natAbs : Int) = exponent := by omega
    simpa [below, nonempty, all, DecimalLiteral.digitsValue_toDigits] using sign

end Reading

end Double

namespace Numeral

theorem isDigit_of_mem_trimZeros {digits : List Char} {digit : Char}
    (all : ∀ digit ∈ digits, digit.isDigit = true) (member : digit ∈ trimZeros digits) :
    digit.isDigit = true := by
  apply all
  rw [← trimZeros_append digits]
  exact List.mem_append_left _ member

/-- Placing the point adds nothing but zeros. -/
theorem isDigit_ofDigits {digits : List Char} (point : Int)
    (all : ∀ digit ∈ digits, digit.isDigit = true) :
    (∀ digit ∈ (ofDigits digits point).integer, digit.isDigit = true) ∧
      (∀ digit ∈ (ofDigits digits point).fraction, digit.isDigit = true) := by
  have zero : '0'.isDigit = true := by decide
  unfold ofDigits
  split
  · simp only [List.mem_singleton, List.mem_append, List.mem_replicate]
    constructor
    · rintro digit rfl
      exact zero
    · rintro digit (⟨_, rfl⟩ | member)
      · exact zero
      · exact all digit member
  · simp only [List.mem_append, List.mem_replicate]
    constructor
    · rintro digit (member | ⟨_, rfl⟩)
      · exact all digit (List.mem_of_mem_take member)
      · exact zero
    · intro digit member
      exact all digit (List.mem_of_mem_drop member)

theorem integer_ofDigits_ne_nil (digits : List Char) (point : Int) :
    (ofDigits digits point).integer ≠ [] := by
  unfold ofDigits
  split
  · simp
  · next inside =>
      intro empty
      have lengths := congrArg List.length empty
      simp only [List.length_append, List.length_take, List.length_replicate, List.length_nil]
        at lengths
      omega

end Numeral

namespace DoubleText

/-- The digits that a decimal is written with, and where the point stands among them. -/
theorem value_writtenDigits (decimal : Decimal) :
    (DecimalLiteral.digitsValue (Numeral.trimZeros (Nat.toDigits 10 decimal.digits)) : ℚ) *
        10 ^ (decimal.exponent + (Nat.toDigits 10 decimal.digits).length -
          (Numeral.trimZeros (Nat.toDigits 10 decimal.digits)).length : Int) =
      decimal.value := by
  rw [Numeral.value_trimZeros, DecimalLiteral.digitsValue_toDigits, add_sub_cancel_right]
  rfl

theorem writtenDigits_ne_nil {decimal : Decimal} (positive : 0 < decimal.digits) :
    Numeral.trimZeros (Nat.toDigits 10 decimal.digits) ≠ [] := by
  intro empty
  have zero : decimal.value = 0 := by
    rw [← value_writtenDigits, empty]
    simp [DecimalLiteral.digitsValue]
  have nonzero : decimal.value ≠ 0 := by
    unfold Decimal.value
    positivity
  exact nonzero zero

theorem isDigit_of_mem_writtenDigits {decimal : Decimal} {digit : Char}
    (member : digit ∈ Numeral.trimZeros (Nat.toDigits 10 decimal.digits)) :
    digit.isDigit = true := by
  apply Numeral.isDigit_of_mem_trimZeros _ member
  intro digit member
  exact Nat.isDigit_of_mem_toDigits (by decide) (by decide) member

/-- The parts that a positive decimal is written with. -/
structure WrittenDecimal where
  integer : List Char
  fraction : List Char
  exponent? : Option Int
  integer_ne_nil : integer ≠ []
  isDigit_integer : ∀ digit ∈ integer, digit.isDigit = true
  isDigit_fraction : ∀ digit ∈ fraction, digit.isDigit = true

namespace WrittenDecimal

variable (written : WrittenDecimal)

def exponentPart : List Char :=
  match written.exponent? with
  | none => []
  | some exponent => 'e' :: exponentText exponent

/-- A point stands before a fraction only. -/
def text : List Char :=
  if written.fraction = [] then written.integer ++ written.exponentPart
  else written.integer ++ '.' :: (written.fraction ++ written.exponentPart)

/-- The literal that the parts stand for. -/
def literal (negative : Bool) : DecimalLiteral :=
  DecimalLiteral.ofParts negative written.integer written.fraction (written.exponent?.getD 0)

theorem readExponent?_exponentPart :
    Double.readExponent? written.exponentPart = some (written.exponent?.getD 0) := by
  unfold exponentPart
  cases written.exponent? with
  | none => rfl
  | some exponent => exact Double.readExponent?_exponentText exponent

theorem stops_exponentPart : Text.Stops Char.isDigit written.exponentPart := by
  unfold exponentPart
  cases written.exponent? with
  | none => exact Text.stops_nil
  | some exponent => exact Text.stops_cons (by decide)

theorem head?_exponentPart : written.exponentPart.head? ≠ some '.' := by
  unfold exponentPart
  cases written.exponent? with
  | none => simp
  | some exponent => simp

/-- The text of the parts is read as their literal. -/
theorem readNumeral?_text (negative : Bool) :
    Double.readNumeral? negative written.text = some (written.literal negative) := by
  unfold text literal
  split
  · next noFraction =>
      rw [Double.readNumeral?_whole negative written.integer_ne_nil written.isDigit_integer
        written.stops_exponentPart written.head?_exponentPart, noFraction,
        written.readExponent?_exponentPart, Option.map_some]
  · rw [Double.readNumeral?_point negative written.integer_ne_nil written.isDigit_integer
      written.isDigit_fraction written.stops_exponentPart, written.readExponent?_exponentPart,
      Option.map_some]

/-- A text with a fraction or an exponent has a mark of it. -/
theorem exists_mark_text (marked : written.fraction ≠ [] ∨ written.exponent?.isSome) :
    ∃ character ∈ written.text, character = '.' ∨ character = 'e' := by
  by_cases noFraction : written.fraction = []
  · rcases Option.isSome_iff_exists.mp (marked.resolve_left (absurd noFraction)) with
      ⟨exponent, found⟩
    exact ⟨'e', by simp [text, noFraction, exponentPart, found], Or.inr rfl⟩
  · exact ⟨'.', by simp [text, noFraction], Or.inl rfl⟩

end WrittenDecimal

/-- A positive decimal is written with parts of its value, with a mark where a fraction is kept. -/
theorem exists_written (style : DoubleText) {decimal : Decimal} (positive : 0 < decimal.digits) :
    ∃ written : WrittenDecimal, style.writeDecimal decimal = written.text ∧
      (∀ negative, (written.literal negative).value = decimal.value) ∧
      (style.keepsFraction = true → written.fraction ≠ [] ∨ written.exponent?.isSome) := by
  have value := value_writtenDigits decimal
  have digitsAll : ∀ digit ∈ Numeral.trimZeros (Nat.toDigits 10 decimal.digits),
      digit.isDigit = true := by
    intro digit member
    exact isDigit_of_mem_writtenDigits member
  have nonempty := writtenDigits_ne_nil positive
  unfold writeDecimal
  simp only
  generalize Numeral.trimZeros (Nat.toDigits 10 decimal.digits) = digits
    at value digitsAll nonempty ⊢
  generalize decimal.exponent + (Nat.toDigits 10 decimal.digits).length = point at value ⊢
  -- The digits around their point, or one digit before the point and an exponent.
  split
  · have layout := Numeral.value_ofDigits digits point
    rcases Numeral.isDigit_ofDigits point digitsAll with ⟨integerAll, fractionAll⟩
    have integerNonempty := Numeral.integer_ofDigits_ne_nil digits point
    generalize Numeral.ofDigits digits point = numeral
      at layout integerAll fractionAll integerNonempty ⊢
    by_cases added : numeral.fraction = [] ∧ style.keepsFraction = true
    · rcases added with ⟨noFraction, keeps⟩
      have zeroDigit : ∀ digit ∈ ['0'], digit.isDigit = true := List.forall_mem_singleton.mpr rfl
      refine ⟨⟨numeral.integer, ['0'], none, integerNonempty, integerAll, zeroDigit⟩, ?_, ?_, ?_⟩
      · simp [noFraction, keeps, WrittenDecimal.text, WrittenDecimal.exponentPart]
      · intro negative
        have zeros := DecimalLiteral.digitsValue_append_zeros numeral.integer 1
        rw [List.replicate_one] at zeros
        rw [noFraction, List.append_nil] at layout
        rw [WrittenDecimal.literal, DecimalLiteral.value_ofParts, zeros, ← value, ← layout]
        simp only [Option.getD_none, pow_one, Nat.cast_mul, Nat.cast_ofNat, List.length_singleton,
          Nat.cast_one, zero_sub, List.length_nil, Nat.cast_zero, neg_zero, zpow_zero, mul_one]
        rw [mul_right_comm, show (10 : ℚ) * 10 ^ (-1 : Int) = 1 by norm_num, one_mul]
      · intro _
        exact Or.inl (List.cons_ne_nil _ _)
    · refine ⟨⟨numeral.integer, numeral.fraction, none, integerNonempty, integerAll, fractionAll⟩,
        ?_, ?_, ?_⟩
      · by_cases noFraction : numeral.fraction = []
        · have drops : style.keepsFraction = false := by
            simpa [noFraction] using added
          simp [noFraction, drops, WrittenDecimal.text, WrittenDecimal.exponentPart]
        · simp [noFraction, WrittenDecimal.text, WrittenDecimal.exponentPart]
      · intro negative
        rw [WrittenDecimal.literal, DecimalLiteral.value_ofParts, ← value, ← layout,
          Option.getD_none, zero_sub]
      · intro keeps
        exact Or.inl fun noFraction => added ⟨noFraction, keeps⟩
  · cases digits with
    | nil => exact absurd rfl nonempty
    | cons digit rest =>
        rw [List.forall_mem_cons] at digitsAll
        refine ⟨⟨[digit], rest, some (point - 1), List.cons_ne_nil _ _,
          List.forall_mem_singleton.mpr digitsAll.1, digitsAll.2⟩, ?_, ?_, fun _ => Or.inr rfl⟩
        · cases rest with
          | nil => simp [WrittenDecimal.text, WrittenDecimal.exponentPart]
          | cons second rest => simp [WrittenDecimal.text, WrittenDecimal.exponentPart]
        · intro negative
          rw [WrittenDecimal.literal, DecimalLiteral.value_ofParts, ← value]
          simp only [List.singleton_append, List.length_cons, Option.getD_some]
          congr 2
          omega

end DoubleText

end LocalizedText
