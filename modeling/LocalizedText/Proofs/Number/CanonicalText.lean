import LocalizedText.Proofs.Number.DecimalText
import LocalizedText.Proofs.Number.ShortestDecimal

/-!
# The canonical text of a double

In keys and descriptions a finite double is written with the digits that determine it, after its
sign. So different doubles have different texts there. The text of a double never looks like the
one of an integer, and no punctuation stands in it.
-/

namespace LocalizedText

namespace DoubleText

/-- The characters that the texts of numbers consist of, besides digits. -/
def marks : List Char := ['.', 'e', '+', '-']

theorem mem_exponentText {exponent : Int} {character : Char}
    (member : character ∈ exponentText exponent) :
    character.isDigit = true ∨ character ∈ marks := by
  unfold exponentText at member
  rcases List.mem_cons.mp member with sign | digit
  · right
    split at sign
    · simp [sign, marks]
    · simp [sign, marks]
  · exact Or.inl (Nat.isDigit_of_mem_toDigits (by decide) (by decide) digit)

theorem WrittenDecimal.mem_exponentPart {written : WrittenDecimal} {character : Char}
    (member : character ∈ written.exponentPart) :
    character.isDigit = true ∨ character ∈ marks := by
  unfold exponentPart at member
  split at member
  · cases member
  · rcases List.mem_cons.mp member with rfl | inExponent
    · exact Or.inr (by decide)
    · exact mem_exponentText inExponent

/-- A positive decimal is written with digits, a point and an exponent. -/
theorem WrittenDecimal.mem_text {written : WrittenDecimal} {character : Char}
    (member : character ∈ written.text) : character.isDigit = true ∨ character ∈ marks := by
  unfold text at member
  split at member
  · rcases List.mem_append.mp member with digit | inExponent
    · exact Or.inl (written.isDigit_integer _ digit)
    · exact mem_exponentPart inExponent
  · simp only [List.mem_append, List.mem_cons] at member
    rcases member with digit | rfl | digit | inExponent
    · exact Or.inl (written.isDigit_integer _ digit)
    · exact Or.inr (by decide)
    · exact Or.inl (written.isDigit_fraction _ digit)
    · exact mem_exponentPart inExponent

end DoubleText

namespace Double

/-- A numeral without a sign in front is read without a sign. -/
theorem readSign_of_readNumeral? {negative : Bool} {text : List Char} {literal : DecimalLiteral}
    (read : readNumeral? negative text = some literal) : readSign text = (false, text) := by
  unfold readSign
  split
  · simp [readNumeral?] at read
  · simp [readNumeral?] at read
  · rfl

/--
The canonical text of a finite double is its sign and a numeral that is read as a number from the
interval of its magnitude.
-/
theorem readSign_canonicalText (negative : Bool) (magnitude : Magnitude) :
    ∃ unsigned literal,
      readSign (finite negative magnitude).canonicalText.toList = (negative, unsigned) ∧
      readNumeral? false unsigned = some literal ∧ magnitude.Covers literal.value := by
  by_cases zero : magnitude.units = 0
  · refine ⟨['0', '.', '0'], ⟨false, 0, -1⟩, ?_, by decide, ?_⟩
    · cases negative
      · simp [canonicalText, DoubleText.write, DoubleText.canonical, zero, readSign]
      · simp [canonicalText, DoubleText.write, DoubleText.canonical, zero, readSign]
    · simpa [DecimalLiteral.value] using Magnitude.covers_zero zero
  · have positive := Nat.pos_of_ne_zero zero
    rcases DoubleText.exists_written DoubleText.canonical
      (Magnitude.digits_shortest_pos positive .toEven) with ⟨written, isText, value, -⟩
    have read := written.readNumeral?_text false
    rw [← isText] at read
    refine ⟨_, written.literal false, ?_, read, ?_⟩
    · cases negative
      · have sign := readSign_of_readNumeral? read
        simpa [canonicalText, DoubleText.write, zero, DoubleText.canonical] using sign
      · simp [canonicalText, DoubleText.write, DoubleText.canonical, zero, readSign]
    · rw [value]
      exact Magnitude.covers_shortest positive .toEven

theorem readNumeral?_infinite (negative : Bool) :
    readNumeral? false (readSign (infinite negative).canonicalText.toList).2 = none := by
  cases negative <;> rfl

theorem readNumeral?_notANumber :
    readNumeral? false (readSign notANumber.canonicalText.toList).2 = none :=
  rfl

theorem eq_finite_of_canonicalText {negative : Bool} {magnitude : Magnitude} {other : Double}
    (same : (finite negative magnitude).canonicalText = other.canonicalText) :
    finite negative magnitude = other := by
  rcases readSign_canonicalText negative magnitude with ⟨unsigned, literal, sign, read, covered⟩
  rw [same] at sign
  cases other with
  | finite otherNegative otherMagnitude =>
      rcases readSign_canonicalText otherNegative otherMagnitude with
        ⟨otherUnsigned, otherLiteral, otherSign, otherRead, otherCovered⟩
      rw [sign] at otherSign
      rcases otherSign with ⟨⟩
      rw [read] at otherRead
      rcases otherRead with ⟨⟩
      rw [covered.unique otherCovered]
  | infinite otherNegative =>
      have word := readNumeral?_infinite otherNegative
      rw [sign, read] at word
      cases word
  | notANumber =>
      have word := readNumeral?_notANumber
      rw [sign, read] at word
      cases word

/-- A double is determined by its canonical text. -/
theorem canonicalText_injective : Function.Injective canonicalText := by
  intro left right same
  cases left with
  | finite negative magnitude => exact eq_finite_of_canonicalText same
  | infinite negative =>
      cases right with
      | finite _ _ => exact (eq_finite_of_canonicalText same.symm).symm
      | infinite otherNegative =>
          cases negative <;> cases otherNegative <;> first | rfl | exact absurd same (by decide)
      | notANumber => cases negative <;> exact absurd same (by decide)
  | notANumber =>
      cases right with
      | finite _ _ => exact (eq_finite_of_canonicalText same.symm).symm
      | infinite negative => cases negative <;> exact absurd same (by decide)
      | notANumber => rfl

/-- A finite double is written with digits, points, exponents and signs. -/
theorem mem_canonicalText_finite {negative : Bool} {magnitude : Magnitude} {character : Char}
    (member : character ∈ (finite negative magnitude).canonicalText.toList) :
    character.isDigit = true ∨ character ∈ DoubleText.marks := by
  by_cases zero : magnitude.units = 0
  · have digits : character ∈ ['-', '0', '.', '0'] := by
      cases negative <;>
        simp_all [canonicalText, DoubleText.write, DoubleText.canonical]
    simp only [List.mem_cons, List.not_mem_nil, or_false] at digits
    rcases digits with rfl | rfl | rfl | rfl <;> decide
  · rcases DoubleText.exists_written DoubleText.canonical (magnitude.digits_shortest_pos
      (Nat.pos_of_ne_zero zero) DoubleText.canonical.tie) with ⟨written, isText, -⟩
    cases negative with
    | false =>
        simp only [canonicalText, DoubleText.write, if_neg zero, isText] at member
        exact DoubleText.WrittenDecimal.mem_text (by simpa using member)
    | true =>
        simp only [canonicalText, DoubleText.write, if_neg zero, isText, if_true,
          String.toList_append, List.mem_append] at member
        rcases member with sign | member
        · right
          simp_all [DoubleText.marks]
        · exact DoubleText.WrittenDecimal.mem_text (by simpa using member)

/-- The text of a double is not one of an integer. -/
theorem exists_mark_canonicalText (value : Double) :
    ∃ character ∈ value.canonicalText.toList, character.isDigit = false ∧ character ≠ '-' := by
  cases value with
  | finite negative magnitude =>
      by_cases zero : magnitude.units = 0
      · refine ⟨'.', ?_, by decide, by decide⟩
        cases negative
        · simp [canonicalText, DoubleText.write, DoubleText.canonical, zero]
        · simp [canonicalText, DoubleText.write, DoubleText.canonical, zero]
      · rcases DoubleText.exists_written DoubleText.canonical (magnitude.digits_shortest_pos
          (Nat.pos_of_ne_zero zero) DoubleText.canonical.tie) with ⟨written, isText, -, marked⟩
        rcases written.exists_mark_text (marked rfl) with ⟨mark, member, isMark⟩
        rw [← isText] at member
        refine ⟨mark, ?_, ?_⟩
        · cases negative
          · simpa [canonicalText, DoubleText.write, zero] using member
          · simp [canonicalText, DoubleText.write, zero, member]
        · rcases isMark with rfl | rfl
          · decide
          · decide
  | infinite negative =>
      refine ⟨'I', ?_, by decide, by decide⟩
      cases negative <;> decide
  | notANumber => exact ⟨'N', by decide, by decide, by decide⟩

end Double

end LocalizedText
