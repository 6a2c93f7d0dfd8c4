import LocalizedText.Proofs.Message.CountBranch
import LocalizedText.Proofs.Number.Mantissa
import Mathlib.Data.Rat.Floor

/-!
# Integer parts

The integer part of a double is a double again, and so is the next integer when something is cut
off: only doubles with at most 53 binary digits before the point have digits behind it. The nearest
double to such an integer is the integer itself, so that nothing here is rounded.
-/

namespace LocalizedText

theorem exists_unitsPerOne_eq : ∃ shift, unitsPerOne = 2 ^ shift :=
  ⟨1074, by rw [unitsPerOne]⟩

/-- Integers of at most 53 binary digits are doubles. -/
theorem isRepresentable_of_le {integer : ℕ} (small : integer ≤ 2 ^ 53) :
    IsRepresentable (integer * unitsPerOne) := by
  constructor
  · have bound : 2 ^ 53 * unitsPerOne < overflowUnits := by decide +kernel
    exact lt_of_le_of_lt (Nat.mul_le_mul_right unitsPerOne small) bound
  · rcases exists_unitsPerOne_eq with ⟨shift, isPower⟩
    rw [isPower]
    exact mul_two_pow_mod small shift

namespace Magnitude

variable {magnitude : Magnitude}

theorem isIntegral_iff : magnitude.isIntegral = true ↔
    magnitude.integerPart * unitsPerOne = magnitude.units := by
  rw [isIntegral, beq_iff_eq, integerPart, ← Nat.dvd_iff_mod_eq_zero]
  exact ⟨Nat.div_mul_cancel, fun whole => Dvd.intro_left _ whole⟩

theorem value_of_isIntegral (isIntegral : magnitude.isIntegral = true) :
    magnitude.value = magnitude.integerPart :=
  value_eq_iff.mpr (isIntegral_iff.mp isIntegral).symm

theorem integerPart_le_value (magnitude : Magnitude) :
    (magnitude.integerPart : ℚ) ≤ magnitude.value := by
  rw [value, le_div_iff₀ cast_unitsPerOne_pos]
  exact_mod_cast Nat.div_mul_le_self magnitude.units unitsPerOne

theorem value_lt_integerPart_succ (magnitude : Magnitude) :
    magnitude.value < magnitude.integerPart + 1 := by
  rw [value, div_lt_iff₀ cast_unitsPerOne_pos]
  exact_mod_cast Nat.lt_mul_of_div_lt (Nat.lt_succ_self _) unitsPerOne_pos

/-- What is large enough for a power of two is a multiple of it. -/
theorem two_pow_dvd_units (shift : ℕ) (large : 2 ^ shift * 2 ^ 52 ≤ magnitude.units) :
    2 ^ shift ∣ magnitude.units := by
  have nonzero : magnitude.units ≠ 0 := by
    have positive : 0 < 2 ^ shift * 2 ^ 52 := by positivity
    omega
  rw [← pow_add, ← Nat.le_log2 nonzero] at large
  apply Dvd.dvd.trans (pow_dvd_pow 2 _) (Nat.dvd_of_mod_eq_zero magnitude.representable.2)
  omega

/-- A double with digits behind the point has at most 53 binary digits before it. -/
theorem integerPart_lt_of_not_isIntegral (fractional : magnitude.isIntegral = false) :
    magnitude.integerPart < 2 ^ 53 := by
  rw [integerPart, Nat.div_lt_iff_lt_mul unitsPerOne_pos, mul_comm]
  by_contra large
  have whole : unitsPerOne ∣ magnitude.units := by
    rcases exists_unitsPerOne_eq with ⟨shift, isPower⟩
    rw [isPower] at large ⊢
    apply two_pow_dvd_units
    exact (Nat.mul_le_mul_left _ (by decide)).trans (not_lt.mp large)
  rw [isIntegral, beq_eq_false_iff_ne] at fractional
  exact fractional (Nat.mod_eq_zero_of_dvd whole)

theorem isRepresentable_integerPart (magnitude : Magnitude) :
    IsRepresentable (magnitude.integerPart * unitsPerOne) := by
  cases isIntegral : magnitude.isIntegral with
  | true =>
      rw [isIntegral_iff.mp isIntegral]
      exact magnitude.representable
  | false => exact isRepresentable_of_le (integerPart_lt_of_not_isIntegral isIntegral).le

end Magnitude

namespace Double

/-- An integer that is a double is the nearest one to itself. -/
theorem ofNat_of_isRepresentable {integer : ℕ}
    (representable : IsRepresentable (integer * unitsPerOne)) :
    ofNat integer = finite false ⟨integer * unitsPerOne, representable⟩ := by
  have nearest := nearestUnits?_mul ⟨integer * unitsPerOne, representable⟩ Nat.one_pos
  rw [Nat.mul_one] at nearest
  rw [ofNat, ofQuotient, Magnitude.nearest?, nearest]
  rfl

/-- The magnitude of the greatest integer that is not above a double. -/
theorem natAbs_floor_number (negative : Bool) (magnitude : Magnitude) :
    ⌊(finite negative magnitude).number⌋.natAbs = floorMagnitude negative magnitude := by
  have least := magnitude.integerPart_le_value
  have most := magnitude.value_lt_integerPart_succ
  cases negative with
  | false =>
      have floor : ⌊magnitude.value⌋ = magnitude.integerPart :=
        Int.floor_eq_iff.mpr ⟨by exact_mod_cast least, by exact_mod_cast most⟩
      simp [number, floorMagnitude, floor]
  | true =>
      cases isIntegral : magnitude.isIntegral with
      | true =>
          have floor : ⌊-magnitude.value⌋ = -(magnitude.integerPart : ℤ) := by
            rw [Magnitude.value_of_isIntegral isIntegral, Int.floor_eq_iff]
            push_cast
            constructor <;> linarith
          simp [number, floorMagnitude, isIntegral, floor]
      | false =>
          have more : (magnitude.integerPart : ℚ) < magnitude.value := by
            apply lt_of_le_of_ne least
            intro same
            have whole := Magnitude.isIntegral_iff.mpr (Magnitude.value_eq_iff.mp same.symm).symm
            rw [isIntegral] at whole
            cases whole
          have floor : ⌊-magnitude.value⌋ = -(magnitude.integerPart + 1 : ℤ) := by
            rw [Int.floor_eq_iff]
            push_cast
            constructor <;> linarith
          simp only [number, if_true, floor, floorMagnitude, isIntegral, Bool.not_false,
            Bool.and_self]
          omega

end Double

end LocalizedText
