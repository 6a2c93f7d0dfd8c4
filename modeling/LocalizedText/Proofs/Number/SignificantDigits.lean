import LocalizedText.Proofs.Number.SignificantRounding

/-!
# The loops of significant digits

Two loops settle how many significant digits a rounded number shows: zeros are dropped from the end
of its fraction while there are more than enough digits, and then added while there are too few. The
digits are counted from the first one that is not zero. So every turn changes the count, unless there
is no such digit: a zero is then added again and again, and the second loop never ends.

Here the loops are taken turn by turn, as relations, and compared with the numeral that is computed
at once. There is one exactly when both loops end, and then it is the one in which they end.

Every turn keeps what the numeral denotes. The first loop stops at a digit that is not zero or that is
needed, and the second adds no more zeros than are needed.
-/

namespace LocalizedText

/-- A loop that goes on while a condition holds ends in a state. -/
inductive LoopEnds {σ : Type} (goesOn : σ → Prop) (turn : σ → σ) : σ → σ → Prop where
  | stop {state : σ} (stops : ¬goesOn state) : LoopEnds goesOn turn state state
  | again {state last : σ} (goes : goesOn state) (rest : LoopEnds goesOn turn (turn state) last) :
      LoopEnds goesOn turn state last

section Loops

variable {σ : Type} {goesOn : σ → Prop} {turn : σ → σ} {state last other : σ}

theorem LoopEnds.unique (ends : LoopEnds goesOn turn state last)
    (otherEnds : LoopEnds goesOn turn state other) : last = other := by
  induction ends with
  | stop stops =>
      cases otherEnds with
      | stop _ => rfl
      | again goes _ => exact absurd goes stops
  | again goes _ inductionHypothesis =>
      cases otherEnds with
      | stop stops => exact absurd goes stops
      | again _ rest => exact inductionHypothesis rest

/-- A loop ends where its condition fails. -/
theorem LoopEnds.stops (ends : LoopEnds goesOn turn state last) : ¬goesOn last := by
  induction ends with
  | stop stops => exact stops
  | again _ _ inductionHypothesis => exact inductionHypothesis

/-- What every turn of a loop keeps still holds where the loop ends. -/
theorem LoopEnds.keeps (ends : LoopEnds goesOn turn state last) (invariant : σ → Prop)
    (kept : ∀ state, goesOn state → invariant state → invariant (turn state))
    (holds : invariant state) : invariant last := by
  induction ends with
  | stop _ => exact holds
  | again goes _ inductionHypothesis => exact inductionHypothesis (kept _ goes holds)

/-- A loop does not end as long as every turn keeps what makes it go on. -/
theorem LoopEnds.false_of_invariant (invariant : σ → Prop)
    (goes : ∀ state, invariant state → goesOn state)
    (kept : ∀ state, invariant state → invariant (turn state)) (holds : invariant state) :
    ¬LoopEnds goesOn turn state last := by
  intro ends
  exact ends.stops (goes _ (ends.keeps invariant (fun state _ => kept state) holds))

end Loops

/-- The double has a digit other than zero: it is finite, and not zero. -/
inductive Double.HasDigit : Double → Prop where
  | finite {negative : Bool} {magnitude : Magnitude} (nonzero : magnitude.units ≠ 0) :
      HasDigit (.finite negative magnitude)

theorem Double.hasDigit_finite_iff {negative : Bool} {magnitude : Magnitude} :
    (Double.finite negative magnitude).HasDigit ↔ magnitude.units ≠ 0 := by
  constructor
  · rintro ⟨nonzero⟩
    exact nonzero
  · exact .finite

theorem Double.units_of_not_hasDigit {negative : Bool} {magnitude : Magnitude}
    (noDigit : ¬(Double.finite negative magnitude).HasDigit) : magnitude.units = 0 := by
  by_contra nonzero
  exact noDigit (.finite nonzero)

namespace Numeral

variable {numeral : Numeral} {minimum : ℕ}

/-- There are more significant digits than needed, and the last of them is a zero of the fraction. -/
def HasSpareZero (minimum : ℕ) (numeral : Numeral) : Prop :=
  numeral.fraction.getLast? = some '0' ∧ minimum < numeral.significantCount

/-- The numeral without the last digit of its fraction. -/
def dropLast (numeral : Numeral) : Numeral :=
  { numeral with fraction := numeral.fraction.dropLast }

/-- There are fewer significant digits than needed. -/
def LacksDigits (minimum : ℕ) (numeral : Numeral) : Prop :=
  numeral.significantCount < minimum

/-- The numeral with a zero at the end of its fraction. -/
def addZero (numeral : Numeral) : Numeral :=
  { numeral with fraction := numeral.fraction ++ ['0'] }

/-- The loops that drop zeros and then add zeros both end, the second in a numeral. -/
def AdjustsTo (minimum : ℕ) (numeral last : Numeral) : Prop :=
  ∃ middle, LoopEnds (HasSpareZero minimum) dropLast numeral middle ∧
    LoopEnds (LacksDigits minimum) addZero middle last

/-- The digits from which the loops start; a double without a digit has a single zero. -/
def unadjusted (value : Double) (maximum : ℕ) : Numeral :=
  match value with
  | .finite _ magnitude =>
      if magnitude.units = 0 then ⟨['0'], []⟩ else roundSignificant magnitude (max maximum 1)
  | _ => ⟨['0'], []⟩

section Counting

theorem significantCount_addZero (numeral : Numeral) :
    numeral.addZero.significantCount =
      if numeral.significantCount = 0 then 0 else numeral.significantCount + 1 := by
  unfold significantCount addZero
  rw [← List.append_assoc, List.dropWhile_append]
  cases (numeral.integer ++ numeral.fraction).dropWhile (· == '0') <;> simp

theorem trimZeros_concat_zero (digits : List Char) :
    trimZeros (digits ++ ['0']) = trimZeros digits := by
  simp [trimZeros]

theorem trimZeros_concat {last : Char} (notZero : last ≠ '0') (digits : List Char) :
    trimZeros (digits ++ [last]) = digits ++ [last] := by
  simp [trimZeros, notZero]

/-- The number of zeros at the end of the fraction. -/
def spareZeros (numeral : Numeral) : ℕ :=
  numeral.fraction.length - (trimZeros numeral.fraction).length

theorem spareZeros_addZero (numeral : Numeral) :
    numeral.addZero.spareZeros = numeral.spareZeros + 1 := by
  have shorter : (trimZeros numeral.fraction).length ≤ numeral.fraction.length := by
    have whole := congrArg List.length (trimZeros_append numeral.fraction)
    simp only [List.length_append] at whole
    omega
  simp only [spareZeros, addZero, trimZeros_concat_zero, List.length_append,
    List.length_singleton]
  omega

theorem exists_addZero (last : numeral.fraction.getLast? = some '0') :
    ∃ rest : Numeral, numeral = rest.addZero := by
  rcases List.getLast?_eq_some_iff.mp last with ⟨front, isFraction⟩
  refine ⟨⟨numeral.integer, front⟩, ?_⟩
  rw [addZero, ← isFraction]

theorem spareZeros_of_getLast? (last : numeral.fraction.getLast? ≠ some '0') :
    numeral.spareZeros = 0 := by
  unfold spareZeros
  rcases List.eq_nil_or_concat numeral.fraction with empty | ⟨front, digit, isFraction⟩
  · simp [empty]
  · rw [isFraction, List.concat_eq_append] at last ⊢
    have notZero : digit ≠ '0' := by simpa using last
    rw [trimZeros_concat notZero, Nat.sub_self]

end Counting

/-- The numeral without so many digits at the end of its fraction. -/
def dropDigits (numeral : Numeral) (count : ℕ) : Numeral :=
  { numeral with fraction := numeral.fraction.take (numeral.fraction.length - count) }

/-- The numeral with so many zeros at the end of its fraction. -/
def addZeros (numeral : Numeral) (count : ℕ) : Numeral :=
  { numeral with fraction := numeral.fraction ++ List.replicate count '0' }

theorem dropLast_addZero (numeral : Numeral) : numeral.addZero.dropLast = numeral := by
  simp [dropLast, addZero]

theorem dropDigits_addZero (numeral : Numeral) (count : ℕ) :
    numeral.addZero.dropDigits (count + 1) = numeral.dropDigits count := by
  simp [dropDigits, addZero]

/-- The first loop drops the zeros that can be spared, and always ends. -/
theorem dropping_ends (minimum : ℕ) (numeral : Numeral) :
    LoopEnds (HasSpareZero minimum) dropLast numeral
      (numeral.dropDigits (min numeral.spareZeros (numeral.significantCount - minimum))) := by
  by_cases spare : numeral.HasSpareZero minimum
  · rcases exists_addZero spare.1 with ⟨rest, rfl⟩
    have shorter : rest.fraction.length < rest.addZero.fraction.length := by
      simp [addZero]
    have ends := dropping_ends minimum rest
    have many := spare.2
    have counts := significantCount_addZero rest
    have spares := spareZeros_addZero rest
    split at counts
    · omega
    · have both : min rest.addZero.spareZeros (rest.addZero.significantCount - minimum) =
          min rest.spareZeros (rest.significantCount - minimum) + 1 := by
        omega
      apply LoopEnds.again spare
      rw [both, dropDigits_addZero, dropLast_addZero]
      exact ends
  · have nothing : min numeral.spareZeros (numeral.significantCount - minimum) = 0 := by
      by_cases endsWithZero : numeral.fraction.getLast? = some '0'
      · have few : ¬minimum < numeral.significantCount := fun many => spare ⟨endsWithZero, many⟩
        omega
      · rw [spareZeros_of_getLast? endsWithZero, Nat.zero_min]
    rw [nothing]
    have same : numeral.dropDigits 0 = numeral := by simp [dropDigits]
    rw [same]
    exact .stop spare
termination_by numeral.fraction.length

/-- The second loop adds the digits that are lacking, if there is a digit to count from. -/
theorem adding_ends (enough : 0 < numeral.significantCount ∨ minimum = 0) :
    LoopEnds (LacksDigits minimum) addZero numeral
      (numeral.addZeros (minimum - numeral.significantCount)) := by
  generalize isLacking : minimum - numeral.significantCount = lacking
  induction lacking generalizing numeral with
  | zero =>
      have same : numeral.addZeros 0 = numeral := by simp [addZeros]
      rw [same]
      apply LoopEnds.stop
      unfold LacksDigits
      omega
  | succ lacking inductionHypothesis =>
      have counts : 0 < numeral.significantCount := by omega
      have next := significantCount_addZero numeral
      rw [if_neg (by omega)] at next
      have same : numeral.addZeros (lacking + 1) = numeral.addZero.addZeros lacking := by
        simp [addZeros, addZero, List.replicate_succ]
      rw [same]
      apply LoopEnds.again
      · unfold LacksDigits
        omega
      · apply inductionHypothesis
        · omega
        · omega

theorem adding_never_ends (noDigit : numeral.significantCount = 0) (positive : 0 < minimum)
    (last : Numeral) : ¬LoopEnds (LacksDigits minimum) addZero numeral last := by
  apply LoopEnds.false_of_invariant (fun state => state.significantCount = 0) _ _ noDigit
  · intro state lacking
    unfold LacksDigits
    omega
  · intro state lacking
    simp [significantCount_addZero, lacking]

theorem significantCount_dropDigits {count : ℕ} (spared : count ≤ numeral.spareZeros) :
    (numeral.dropDigits count).significantCount = numeral.significantCount - count := by
  induction count generalizing numeral with
  | zero => simp [dropDigits]
  | succ count inductionHypothesis =>
      have endsWithZero : numeral.fraction.getLast? = some '0' := by
        by_contra otherEnd
        rw [spareZeros_of_getLast? otherEnd] at spared
        omega
      rcases exists_addZero endsWithZero with ⟨rest, rfl⟩
      have counts := significantCount_addZero rest
      have spares := spareZeros_addZero rest
      rw [dropDigits_addZero, inductionHypothesis (by omega)]
      split at counts <;> omega

/-- Both loops end in the numeral that is computed at once, if there is a digit to count from. -/
theorem adjustsTo_adjustSignificant (enough : 0 < numeral.significantCount ∨ minimum = 0) :
    AdjustsTo minimum numeral (numeral.adjustSignificant minimum) := by
  have dropped := dropping_ends minimum numeral
  have counts := significantCount_dropDigits (Nat.min_le_left numeral.spareZeros
    (numeral.significantCount - minimum))
  refine ⟨_, dropped, ?_⟩
  have stillEnough : 0 < (numeral.dropDigits (min numeral.spareZeros
      (numeral.significantCount - minimum))).significantCount ∨ minimum = 0 := by
    omega
  have same : minimum - (numeral.dropDigits (min numeral.spareZeros
      (numeral.significantCount - minimum))).significantCount =
        minimum - numeral.significantCount := by
    omega
  have added := adding_ends stillEnough
  rw [same] at added
  exact added

theorem AdjustsTo.unique {last other : Numeral} (ends : AdjustsTo minimum numeral last)
    (otherEnds : AdjustsTo minimum numeral other) : last = other := by
  rcases ends with ⟨middle, dropped, added⟩
  rcases otherEnds with ⟨otherMiddle, otherDropped, otherAdded⟩
  rw [← dropped.unique otherDropped] at otherAdded
  exact added.unique otherAdded

section Unadjusted

variable {value : Double} {maximum : ℕ}

theorem unadjusted_of_not_hasDigit (noDigit : ¬value.HasDigit) :
    unadjusted value maximum = ⟨['0'], []⟩ := by
  cases value with
  | finite negative magnitude =>
      have zero := Double.units_of_not_hasDigit noDigit
      simp [unadjusted, zero]
  | _ => rfl

/-- Rounding a positive magnitude gives at least as many significant digits as are asked for. -/
theorem le_significantCount_roundSignificant {magnitude : Magnitude}
    (positive : 0 < magnitude.units) {count : ℕ} (several : 1 ≤ count) :
    count ≤ (roundSignificant magnitude count).significantCount := by
  rcases exists_roundSignificant positive several with
    ⟨digits, point, placed, rfl, -, noLeadingZero, -⟩
  rw [placed]
  exact length_le_significantCount_ofDigits point noLeadingZero

theorem significantCount_unadjusted_pos (hasDigit : value.HasDigit) (maximum : ℕ) :
    0 < (unadjusted value maximum).significantCount := by
  cases value with
  | finite negative magnitude =>
      have positive := Double.hasDigit_finite_iff.mp hasDigit
      simp only [unadjusted, if_neg positive]
      have enough : max maximum 1 ≤ (roundSignificant magnitude (max maximum 1)).significantCount :=
        le_significantCount_roundSignificant (Nat.pos_of_ne_zero positive) (by omega)
      omega
  | infinite negative => cases hasDigit
  | notANumber => cases hasDigit

end Unadjusted

theorem significant?_of_hasDigit {value : Double} (hasDigit : value.HasDigit)
    (minimum maximum : ℕ) :
    significant? value minimum maximum =
      some ((unadjusted value maximum).adjustSignificant minimum) := by
  cases value with
  | finite negative magnitude =>
      have positive := Double.hasDigit_finite_iff.mp hasDigit
      simp only [significant?, unadjusted, if_neg positive]
  | infinite negative => cases hasDigit
  | notANumber => cases hasDigit

theorem significant?_of_not_hasDigit {value : Double} (noDigit : ¬value.HasDigit)
    (minimum maximum : ℕ) :
    significant? value minimum maximum = if minimum = 0 then some ⟨['0'], []⟩ else none := by
  cases value with
  | finite negative magnitude =>
      have zero := Double.units_of_not_hasDigit noDigit
      simp [significant?, zero]
  | infinite negative => rfl
  | notANumber => rfl

theorem significant?_eq_none_iff {value : Double} {minimum maximum : ℕ} :
    significant? value minimum maximum = none ↔ 0 < minimum ∧ ¬value.HasDigit := by
  by_cases hasDigit : value.HasDigit
  · simp [significant?_of_hasDigit hasDigit, hasDigit]
  · simp [significant?_of_not_hasDigit hasDigit, hasDigit, Nat.pos_iff_ne_zero]

/-- There is a numeral of significant digits exactly when the loops end, and it is their end. -/
theorem significant?_eq_some_iff {value : Double} {minimum maximum : ℕ} {last : Numeral} :
    significant? value minimum maximum = some last ↔
      AdjustsTo minimum (unadjusted value maximum) last := by
  by_cases enough : 0 < (unadjusted value maximum).significantCount ∨ minimum = 0
  · have ends := adjustsTo_adjustSignificant enough
    have found : significant? value minimum maximum =
        some ((unadjusted value maximum).adjustSignificant minimum) := by
      by_cases hasDigit : value.HasDigit
      · exact significant?_of_hasDigit hasDigit minimum maximum
      · rw [unadjusted_of_not_hasDigit hasDigit] at enough ⊢
        have nothing : minimum = 0 := by
          rcases enough with counts | nothing
          · cases counts
          · exact nothing
        subst nothing
        exact significant?_of_not_hasDigit hasDigit 0 maximum
    rw [found, Option.some.injEq]
    constructor
    · rintro rfl
      exact ends
    · exact ends.unique
  · have noDigit : ¬value.HasDigit := by
      intro hasDigit
      exact enough (Or.inl (significantCount_unadjusted_pos hasDigit maximum))
    rw [significant?_of_not_hasDigit noDigit, if_neg (by tauto), unadjusted_of_not_hasDigit noDigit]
    constructor
    · rintro ⟨⟩
    · rintro ⟨middle, dropped, added⟩
      have unchanged := dropped.unique (dropping_ends minimum ⟨['0'], []⟩)
      subst unchanged
      exact absurd added (adding_never_ends rfl (by omega) last)

/-- Both loops end for every double with a digit, and for the others only if no digit is asked for. -/
theorem exists_adjustsTo_iff {value : Double} {minimum maximum : ℕ} :
    (∃ last, AdjustsTo minimum (unadjusted value maximum) last) ↔
      value.HasDigit ∨ minimum = 0 := by
  simp only [← significant?_eq_some_iff, ← Option.isSome_iff_exists, Option.isSome_iff_ne_none, Ne,
    significant?_eq_none_iff, Nat.pos_iff_ne_zero]
  tauto

section Adjusting

variable {last : Numeral}

/-- A zero at the end of the fraction does not change what a numeral denotes. -/
theorem value_addZero (numeral : Numeral) : numeral.addZero.value = numeral.value := by
  have zeros := DecimalLiteral.digitsValue_append_zeros (numeral.integer ++ numeral.fraction) 1
  rw [List.replicate_one, List.append_assoc] at zeros
  simp only [value, addZero, zeros, List.length_append, List.length_singleton, pow_succ, pow_zero]
  push_cast
  field_simp

/-- What the loops keep of a numeral: its integer part, what it denotes, and that it has digits. -/
structure Keeps (numeral last : Numeral) : Prop where
  integer : last.integer = numeral.integer
  value : last.value = numeral.value
  isDigit : (∀ digit ∈ numeral.integer ++ numeral.fraction, digit.isDigit = true) →
    ∀ digit ∈ last.integer ++ last.fraction, digit.isDigit = true

theorem Keeps.refl (numeral : Numeral) : Keeps numeral numeral :=
  ⟨rfl, rfl, id⟩

theorem keeps_addZero (kept : numeral.Keeps last) : numeral.Keeps last.addZero where
  integer := kept.integer
  value := (value_addZero last).trans kept.value
  isDigit := by
    intro all digit member
    rw [addZero, ← List.append_assoc, List.mem_append, List.mem_singleton] at member
    rcases member with earlier | rfl
    · exact kept.isDigit all digit earlier
    · rfl

theorem keeps_dropLast (spare : last.HasSpareZero minimum) (kept : numeral.Keeps last) :
    numeral.Keeps last.dropLast := by
  rcases exists_addZero spare.1 with ⟨rest, rfl⟩
  rw [dropLast_addZero]
  refine ⟨kept.integer, (value_addZero rest).symm.trans kept.value, ?_⟩
  intro all digit member
  apply kept.isDigit all
  rw [addZero, ← List.append_assoc]
  exact List.mem_append_left _ member

theorem AdjustsTo.keeps (ends : AdjustsTo minimum numeral last) : numeral.Keeps last := by
  rcases ends with ⟨middle, dropped, added⟩
  have first := dropped.keeps numeral.Keeps (fun _ => keeps_dropLast) (Keeps.refl numeral)
  exact added.keeps numeral.Keeps (fun _ _ => keeps_addZero) first

/-- Where the loops end there are enough digits, and a zero ends the fraction only to make it so. -/
theorem AdjustsTo.significantCount (ends : AdjustsTo minimum numeral last) :
    minimum ≤ last.significantCount ∧
      (last.fraction.getLast? = some '0' → last.significantCount = minimum) := by
  rcases ends with ⟨middle, dropped, added⟩
  have enough : minimum ≤ last.significantCount := not_lt.mp added.stops
  -- The second loop adds a zero only where digits are lacking, and then one more is not too many.
  have few : last.fraction.getLast? = some '0' → last.significantCount ≤ minimum := by
    apply added.keeps fun state =>
      state.fraction.getLast? = some '0' → state.significantCount ≤ minimum
    · intro state lacking _ _
      unfold LacksDigits at lacking
      rw [significantCount_addZero]
      split <;> omega
    · intro zero
      by_contra many
      exact dropped.stops ⟨zero, not_le.mp many⟩
  exact ⟨enough, fun zero => le_antisymm (few zero) enough⟩

end Adjusting

/--
A numeral is laid out by its significant digits: its integer part is a single zero below one, and
starts with another digit from one on; there are enough digits, and a zero ends the fraction only to
make them enough.
-/
structure IsSignificant (numeral : Numeral) (minimum : ℕ) : Prop where
  isDigit : ∀ digit ∈ numeral.integer ++ numeral.fraction, digit.isDigit = true
  belowOne : numeral.value < 1 → numeral.integer = ['0']
  noLeadingZero : 1 ≤ numeral.value →
    numeral.integer ≠ [] ∧ numeral.integer.head? ≠ some '0'
  minimum_le : minimum ≤ numeral.significantCount
  noSpareZero : numeral.fraction.getLast? = some '0' → numeral.significantCount = minimum

/--
A positive double is rounded to significant digits in a numeral, in which the loops that drop and
add zeros end. It denotes the exact value of the double rounded to the greatest number of
significant digits, and has at least the least number of them.
-/
theorem significant?_isSignificant {magnitude : Magnitude} (positive : 0 < magnitude.units)
    (minimum : ℕ) {maximum : ℕ} (several : 1 ≤ maximum) :
    ∃ numeral, significant? (.finite false magnitude) minimum maximum = some numeral ∧
      AdjustsTo minimum (unadjusted (.finite false magnitude) maximum) numeral ∧
      IsSignificantRounding maximum magnitude.value numeral.value ∧
      numeral.IsSignificant minimum := by
  have hasDigit : (Double.finite false magnitude).HasDigit := .finite positive.ne'
  have found := significant?_of_hasDigit hasDigit minimum maximum
  have ends := significant?_eq_some_iff.mp found
  have start : unadjusted (.finite false magnitude) maximum = roundSignificant magnitude maximum := by
    simp only [unadjusted, if_neg positive.ne', Nat.max_eq_left several]
  generalize (unadjusted (.finite false magnitude) maximum).adjustSignificant minimum = numeral
    at found ends
  refine ⟨numeral, found, ends, ?_⟩
  rw [start] at ends
  rcases roundSignificant_cases positive several with ⟨all, plain, rounding⟩
  have kept := ends.keeps
  have digits := kept.isDigit all
  have stillPlain : numeral.HasPlainInteger := by
    unfold HasPlainInteger
    rw [kept.integer]
    exact plain
  rcases stillPlain.integer digits with ⟨belowOne, noLeadingZero⟩
  rcases ends.significantCount with ⟨enough, noSpareZero⟩
  rw [← kept.value] at rounding
  exact ⟨rounding, digits, belowOne, noLeadingZero, enough, noSpareZero⟩

/-- A number just below one, rounded up to three digits of which two are needed. -/
theorem significant?_isSignificant_carry :
    let magnitude : Magnitude := ⟨4095 * 2 ^ 1062, by decide +kernel⟩
    0 < magnitude.units ∧
      significant? (.finite false magnitude) 2 3 = some ⟨['1'], ['0']⟩ ∧
      IsSignificantRounding 3 magnitude.value (value ⟨['1'], ['0']⟩) ∧
      IsSignificant ⟨['1'], ['0']⟩ 2 := by
  intro magnitude
  have positive : 0 < magnitude.units := by decide +kernel
  have evaluated : significant? (.finite false magnitude) 2 3 = some ⟨['1'], ['0']⟩ := by
    decide +kernel
  rcases significant?_isSignificant positive 2 (show 1 ≤ 3 by decide) with
    ⟨numeral, found, -, rounding, layout⟩
  rw [evaluated, Option.some.injEq] at found
  subst found
  exact ⟨positive, evaluated, rounding, layout⟩

end Numeral

end LocalizedText
