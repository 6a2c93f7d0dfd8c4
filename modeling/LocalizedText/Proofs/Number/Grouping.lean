import LocalizedText.Proofs.Number.StandardForm

/-!
# Groups of digits

Between the integer digits of a written numeral stand separators, and a separator of another kind
stands before its fraction. As the two differ and neither is a digit, the numeral is read off again:
the text is split at the decimal separator, and the group separators in front of it are left out.

The separators cut the integer digits into groups of three from the right, of which the first may be
shorter. They are there exactly when digits are grouped and there are enough of them.
-/

namespace LocalizedText

namespace Numeral

/-- Digits cut into groups of three from the right; the first group has one to three digits. -/
structure AreGroups (digits first : List Char) (further : List (List Char)) : Prop where
  whole : (first :: further).flatten = digits
  first_pos : 1 ≤ first.length
  first_le : first.length ≤ 3
  length_further : ∀ group ∈ further, group.length = 3

section Groups

variable {separator digit : Char} {digits rest first : List Char} {further : List (List Char)}

theorem AreGroups.length_eq (groups : AreGroups digits first further) :
    digits.length = first.length + 3 * further.length := by
  have lengths : further.map List.length = List.replicate further.length 3 :=
    List.map_eq_replicate_iff.mpr groups.length_further
  rw [← groups.whole, List.flatten_cons, List.length_append, List.length_flatten, lengths,
    List.sum_replicate_nat, Nat.mul_comm]

/-- A digit before whole groups of three is a group of its own. -/
theorem AreGroups.cons_whole (groups : AreGroups rest first further)
    (triples : rest.length % 3 = 0) : AreGroups (digit :: rest) [digit] (first :: further) where
  whole := by rw [List.flatten_cons, groups.whole, List.singleton_append]
  first_pos := Nat.le_refl 1
  first_le := by simp
  length_further := by
    have total := groups.length_eq
    have positive := groups.first_pos
    have small := groups.first_le
    exact List.forall_mem_cons.mpr ⟨by omega, groups.length_further⟩

/-- A digit before a group that is not full goes into it. -/
theorem AreGroups.cons_short (groups : AreGroups rest first further)
    (short : rest.length % 3 ≠ 0) : AreGroups (digit :: rest) (digit :: first) further where
  whole := by rw [← groups.whole, List.flatten_cons, List.flatten_cons, List.cons_append]
  first_pos := by simp
  first_le := by
    have total := groups.length_eq
    have small := groups.first_le
    rw [List.length_cons]
    omega
  length_further := groups.length_further

theorem mem_insertSeparators {character : Char}
    (member : character ∈ insertSeparators separator digits) :
    character ∈ digits ∨ character = separator := by
  induction digits with
  | nil => exact Or.inl member
  | cons digit rest inductionHypothesis =>
      rw [insertSeparators] at member
      split at member <;> grind

/-- Splitting digits at the separators that were put in gives the groups. -/
theorem splitOn_insertSeparators (absent : separator ∉ digits) (nonempty : digits ≠ []) :
    ∃ first further, (insertSeparators separator digits).splitOn separator = first :: further ∧
      AreGroups digits first further := by
  induction digits with
  | nil => exact absurd rfl nonempty
  | cons digit rest inductionHypothesis =>
      rw [List.mem_cons, not_or] at absent
      rcases absent with ⟨apart, absent⟩
      have differs : (digit == separator) = false := by simpa using Ne.symm apart
      by_cases last : rest = []
      · subst last
        refine ⟨[digit], [], ?_, rfl, Nat.le_refl 1, by simp, by simp⟩
        simp [insertSeparators, List.splitOn_cons_eq_if_modifyHead, differs]
      · rcases inductionHypothesis absent last with ⟨first, further, split, groups⟩
        by_cases triples : rest.length % 3 = 0
        · refine ⟨[digit], first :: further, ?_, groups.cons_whole triples⟩
          rw [insertSeparators, if_pos ⟨last, triples⟩, List.splitOn_cons_eq_if_modifyHead, differs,
            List.splitOn_cons_eq_if_modifyHead, beq_self_eq_true, split]
          rfl
        · refine ⟨digit :: first, further, ?_, groups.cons_short triples⟩
          rw [insertSeparators, if_neg (fun both => triples both.2),
            List.splitOn_cons_eq_if_modifyHead, differs, split]
          rfl

/-- There is a separator among more than three digits. -/
theorem mem_insertSeparators_of_lt (absent : separator ∉ digits) (many : 3 < digits.length) :
    separator ∈ insertSeparators separator digits := by
  have nonempty : digits ≠ [] := by
    rintro rfl
    simp at many
  rcases splitOn_insertSeparators absent nonempty with ⟨first, further, split, groups⟩
  by_contra missing
  rw [List.splitOn_eq_singleton missing] at split
  cases split
  have total := groups.length_eq
  have small := groups.first_le
  simp only [List.length_nil] at total
  omega

end Groups

section Render

variable {numeral : Numeral} {group decimal : Char}

theorem not_mem_of_isDigit {digits : List Char} (notDigit : group.isDigit = false)
    (isDigit : ∀ digit ∈ digits, digit.isDigit = true) : group ∉ digits := by
  intro member
  rw [isDigit group member] at notDigit
  cases notDigit

/-- The integer digits of a written numeral, with separators between their groups or whole. -/
theorem exists_integer_render (absent : group ∉ numeral.integer) (minimum : Option Nat)
    (decimal : Char) :
    ∃ whole, numeral.render (minimum.map fun least => (group, least)) decimal =
        (if numeral.fraction.isEmpty then whole else whole ++ decimal :: numeral.fraction) ∧
      (∀ character ∈ whole, character ∈ numeral.integer ∨ character = group) ∧
      whole.filter (· != group) = numeral.integer ∧
      (group ∈ whole ↔ ∃ least ∈ minimum, 3 + max least 1 ≤ numeral.integer.length) ∧
      (group ∈ whole → ∃ first further, whole.splitOn group = first :: further ∧
        AreGroups numeral.integer first further) := by
  have kept : ∀ digit ∈ numeral.integer, (digit != group) = true := by
    intro digit member
    rw [bne_iff_ne]
    rintro rfl
    exact absent member
  have filtered := List.filter_eq_self.mpr kept
  cases minimum with
  | none =>
      refine ⟨numeral.integer, rfl, fun _ => Or.inl, filtered, ?_, fun member => ?_⟩
      · simp [absent]
      · exact absurd member absent
  | some least =>
      refine ⟨groupInteger numeral.integer group least, rfl, ?_⟩
      unfold groupInteger
      split
      · next few =>
          refine ⟨fun _ => Or.inl, filtered, ?_, fun member => absurd member absent⟩
          simpa [absent] using few
      · next enough =>
          have many : 3 < numeral.integer.length := by omega
          have nonempty : numeral.integer ≠ [] := List.length_pos_iff.mp (by omega)
          have present := mem_insertSeparators_of_lt absent many
          refine ⟨fun _ => mem_insertSeparators, filter_insertSeparators (by simp) kept, ?_,
            fun _ => splitOn_insertSeparators absent nonempty⟩
          simpa [present] using enough

/--
A written numeral is read off again. Its text, split at the decimal separator, is the integer digits
as they are written and the fraction if there is one; without the group separators the former are
the integer digits. The separators cut these into a group of one to three digits and others of
three, and are there exactly when digits are grouped and there are enough of them. The separators of
every locale are as this takes them to be.
-/
theorem render_decodes (numeral : Numeral) (minimum : Option Nat)
    (isDigit : ∀ digit ∈ numeral.integer ++ numeral.fraction, digit.isDigit = true)
    (groupNotDigit : group.isDigit = false) (decimalNotDigit : decimal.isDigit = false)
    (apart : decimal ≠ group) :
    (∃ whole,
      (numeral.render (minimum.map fun least => (group, least)) decimal).splitOn decimal =
          whole :: (if numeral.fraction = [] then [] else [numeral.fraction]) ∧
        whole.filter (· != group) = numeral.integer ∧
        (group ∈ whole ↔ ∃ least ∈ minimum, 3 + max least 1 ≤ numeral.integer.length) ∧
        (group ∈ whole → ∃ first further, whole.splitOn group = first :: further ∧
          AreGroups numeral.integer first further)) ∧
      ∀ data ∈ LocaleData.all, data.groupSeparator.isDigit = false ∧
        data.decimalSeparator.isDigit = false ∧ data.decimalSeparator ≠ data.groupSeparator := by
  refine ⟨?_, LocaleData.separators_of_mem⟩
  rw [List.forall_mem_append] at isDigit
  rcases isDigit with ⟨integerDigits, fractionDigits⟩
  have absent := not_mem_of_isDigit groupNotDigit integerDigits
  rcases exists_integer_render absent minimum decimal with
    ⟨whole, written, members, filtered, grouped, groups⟩
  refine ⟨whole, ?_, filtered, grouped, groups⟩
  have noPoint : decimal ∉ whole := by
    intro member
    rcases members decimal member with digit | rfl
    · exact not_mem_of_isDigit decimalNotDigit integerDigits digit
    · exact apart rfl
  rw [written]
  by_cases empty : numeral.fraction = []
  · simp [empty, List.splitOn_eq_singleton noPoint]
  · have noPointBehind := not_mem_of_isDigit decimalNotDigit fractionDigits
    rw [if_neg (by simpa using empty), if_neg empty, List.splitOn_append_cons_self,
      List.splitOn_eq_singleton noPoint, List.splitOn_eq_singleton noPointBehind]
    rfl

/-- In Spanish, where four digits would stay together. -/
theorem render_decodes_spanish :
    let numeral : Numeral := ⟨"12345".toList, "67".toList⟩
    let text := "12.345,67".toList
    numeral.render (some ('.', 2)) ',' = text ∧
      ∃ whole, text.splitOn ',' =
          whole :: (if numeral.fraction = [] then [] else [numeral.fraction]) ∧
        whole.filter (· != '.') = numeral.integer ∧
        ('.' ∈ whole ↔ ∃ least ∈ some 2, 3 + max least 1 ≤ numeral.integer.length) ∧
        ('.' ∈ whole → ∃ first further, whole.splitOn '.' = first :: further ∧
          AreGroups numeral.integer first further) := by
  intro numeral text
  have written : numeral.render (some ('.', 2)) ',' = text := by decide
  refine ⟨written, ?_⟩
  rw [← written]
  have areDigits := List.all_eq_true.mp
    (show (numeral.integer ++ numeral.fraction).all Char.isDigit = true by decide)
  exact (render_decodes numeral (some 2) areDigits (by decide) (by decide) (by decide)).1

end Render

end Numeral

end LocalizedText
