import LocalizedText.Proofs.Message.Recovery
import LocalizedText.Proofs.Message.Transparency
import LocalizedText.Proofs.Number.RoundingError

/-!
# The branch of a count

A branch for an exact integer is meant for the counts that are this integer. It is rendered for them
whatever their category is, and the branches by categories come in when no exact one is meant.

The selectors that are read are the integers of 64 bits. For the least of them, `-2 ^ 63`, this
fails: a count is bounded without its sign, and `2 ^ 63` is beyond the bound. A branch for it is
read but never rendered.
-/

namespace LocalizedText

theorem Magnitude.value_eq_iff {magnitude : Magnitude} {integer : ℕ} :
    magnitude.value = integer ↔ magnitude.units = integer * unitsPerOne := by
  unfold Magnitude.value
  rw [div_eq_iff cast_unitsPerOne_pos.ne']
  norm_cast

theorem Double.value_eq_abs_number (negative : Bool) (magnitude : Magnitude) :
    magnitude.value = |(Double.finite negative magnitude).number| := by
  have nonneg : 0 ≤ magnitude.value := Double.value_nonneg magnitude
  cases negative
  · exact (abs_of_nonneg nonneg).symm
  · exact ((abs_neg _).trans (abs_of_nonneg nonneg)).symm

/-- A double that is given by an integer is this integer. -/
theorem Double.number_mul_unitsPerOne (negative : Bool) (integer : ℕ)
    (representable : IsRepresentable (integer * unitsPerOne)) :
    (Double.finite negative ⟨integer * unitsPerOne, representable⟩).number =
      if negative then -(integer : ℚ) else integer := by
  have whole : (⟨integer * unitsPerOne, representable⟩ : Magnitude).value = integer :=
    Magnitude.value_eq_iff.mpr rfl
  rw [number, whole]

/-- A double is read as an integer when it is one. -/
theorem Double.toInt?_eq_some_iff {value : Double} {integer : ℤ} :
    value.toInt? = some integer ↔ value.isFinite = true ∧ value.number = integer := by
  cases value with
  | finite negative magnitude =>
      cases isIntegral : magnitude.isIntegral with
      | true =>
          have whole : magnitude.value = magnitude.integerPart := by
            rw [Magnitude.value_eq_iff, Magnitude.integerPart]
            rw [Magnitude.isIntegral, beq_iff_eq] at isIntegral
            exact (Nat.div_mul_cancel (Nat.dvd_of_mod_eq_zero isIntegral)).symm
          let signed : ℤ := if negative then -magnitude.integerPart else magnitude.integerPart
          have read : (Double.finite negative magnitude).toInt? = some signed := by
            rw [toInt?, if_pos isIntegral]
          have isNumber : (Double.finite negative magnitude).number = signed := by
            cases negative <;> simp [number, whole, signed]
          rw [read, isNumber, Option.some_inj, Int.cast_inj]
          exact ⟨fun same => ⟨rfl, same⟩, And.right⟩
      | false =>
          have unread : (Double.finite negative magnitude).toInt? = none := by
            simp [toInt?, isIntegral]
          rw [unread]
          constructor
          · intro read
            cases read
          · rintro ⟨-, isNumber⟩
            have whole : magnitude.value = integer.natAbs := by
              rw [value_eq_abs_number negative, isNumber, Nat.cast_natAbs, Int.cast_abs]
            rw [Magnitude.value_eq_iff] at whole
            simp [Magnitude.isIntegral, whole] at isIntegral
  | infinite | notANumber => simp [toInt?, isFinite]

/-- A count names the integer that it is, unless that has more than 63 binary digits. -/
theorem exactCount?_eq_some_iff {value : Double} {integer : ℤ} :
    exactCount? value = some integer ↔
      value.isFinite = true ∧ value.number = integer ∧ integer.natAbs < 2 ^ 63 := by
  rw [← and_assoc, ← Double.toInt?_eq_some_iff]
  unfold exactCount?
  cases value.toInt? with
  | none => simp
  | some found =>
      simp only [Option.some.injEq]
      split
      · next small =>
        simp only [Option.some.injEq]
        constructor
        · rintro rfl
          exact ⟨rfl, small⟩
        · exact And.left
      · next large =>
        simp only [reduceCtorEq, false_iff, not_and]
        rintro rfl
        exact large

namespace MessageScope

variable {scope : MessageScope} {output : MessageOutput}

theorem count_of_number? {name : String} {value : Double} (read : scope.number? name = some value)
    (finite : value.isFinite = true) : scope.count name = value := by
  simp [count, read, finite]

/-- A count that is a finite number is not told of. -/
theorem tell_countEvents {name : String} {value : Double} (read : scope.number? name = some value)
    (finite : value.isFinite = true) : output.tell (scope.countEvents name) = output := by
  simp [countEvents, read, finite, MessageOutput.tell]

theorem isFinite_count (scope : MessageScope) (name : String) :
    (scope.count name).isFinite = true := by
  unfold count
  split
  · split
    · assumption
    · rfl
  · rfl

/-- The category of a count, by the ordinal rule or the plural rule of the locale. -/
def categoryOf (scope : MessageScope) (native ordinal : Bool) (value : Double) : PluralCategory :=
  if ordinal then (OrdinalFormatter.ruleFor native scope.locale).category value
  else scope.rules.select scope.locale value

section PluralBranch

variable {name : String} {ordinal : Bool} {exact : List (Int × List MessageNode)}
  {categories : List (PluralCategory × List MessageNode)} {other : List MessageNode}

theorem pluralBranch_of_exact {key : Int} {body : Message} (listed : exact.lookup key = some body)
    (isKey : exactCount? (scope.count name) = some key) :
    scope.pluralBranch output name ordinal exact categories other =
      (output.tell (scope.countEvents name), body) := by
  simp [pluralBranch, isKey, listed]

theorem pluralBranch_of_category {native : Bool} (faithful : output.ordinals.IsFaithful native)
    (unlisted : ((exactCount? (scope.count name)).bind fun key => exact.lookup key) = none) :
    ∃ ordinals : OrdinalFormatter, ordinals.IsFaithful native ∧
      scope.pluralBranch output name ordinal exact categories other =
        ({ output.tell (scope.countEvents name) with ordinals },
          (categories.lookup (scope.categoryOf native ordinal (scope.count name))).getD other) := by
  unfold pluralBranch categoryOf
  simp only [unlisted]
  cases ordinal with
  | true =>
      rcases faithful.category (scope.count name) scope.locale with ⟨category, after⟩
      refine ⟨_, after, ?_⟩
      rw [← category]
      rfl
  | false => exact ⟨output.ordinals, faithful, rfl⟩

end PluralBranch

/--
Branches by a count, for a count that is the finite number which the argument reads as. The branch
for an integer is added when the count is that integer, unless the integer is the least of 64 bits.
When the count is none of the integers that have a branch, the branch of its category is added, or
the one for all other cases.
-/
theorem addNode_plural_by_count (native : Bool) (scope : MessageScope) (output : MessageOutput)
    (name : String) (ordinal : Bool) (exact : List (Int × List MessageNode))
    (categories : List (PluralCategory × List MessageNode)) (other : List MessageNode)
    (faithful : output.ordinals.IsFaithful native) :
    let added := scope.addNode output (.plural name ordinal exact categories other)
    let value := scope.count name
    let inner : MessageScope := { scope with pound := some value }
    let told := output.tell (scope.countEvents name)
    (∀ read, scope.number? name = some read → read.isFinite = true → value = read ∧ told = output) ∧
      (∀ key body, exact.lookup key = some body → value.number = key →
        -2 ^ 63 < key → key < 2 ^ 63 → added = inner.addNodes told body) ∧
      ((∀ key ∈ exact.map Prod.fst, -2 ^ 63 < key → key < 2 ^ 63 → value.number ≠ key) →
        ∃ ordinals : OrdinalFormatter, ordinals.IsFaithful native ∧
          added = inner.addNodes { told with ordinals }
            ((categories.lookup (scope.categoryOf native ordinal value)).getD other)) := by
  intro added value inner told
  have isAdded : added = inner.addNodes
      (scope.pluralBranch output name ordinal exact categories other).1
      (scope.pluralBranch output name ordinal exact categories other).2 :=
    addNode_plural name ordinal exact categories other
  refine ⟨fun read isRead finite =>
    ⟨count_of_number? isRead finite, tell_countEvents isRead finite⟩, ?_, ?_⟩
  · intro key body listed isNumber least greatest
    have isKey : exactCount? value = some key :=
      exactCount?_eq_some_iff.mpr ⟨isFinite_count scope name, isNumber, by omega⟩
    rw [isAdded, pluralBranch_of_exact listed isKey]
  · intro apart
    have unlisted : ((exactCount? value).bind fun key => exact.lookup key) = none := by
      apply Option.bind_eq_none_iff.mpr
      intro key isKey
      rcases exactCount?_eq_some_iff.mp isKey with ⟨-, isNumber, small⟩
      rw [Keyed.lookup_eq_none_iff]
      intro member
      exact apart key member (by omega) (by omega) isNumber
    rcases pluralBranch_of_category faithful unlisted with ⟨ordinals, after, branch⟩
    refine ⟨ordinals, after, ?_⟩
    rw [isAdded, branch]

/-- A branch for an integer near the bound is added, and the category decides for other counts. -/
theorem addNode_plural_by_count_large :
    let far : Double := .finite true ⟨(2 ^ 63 - 1024) * unitsPerOne, by decide +kernel⟩
    let one : Double := .finite false ⟨1 * unitsPerOne, by decide +kernel⟩
    let node : MessageNode :=
      .plural "n" false [(-(2 ^ 63 - 1024), [.text "far"])] [(.one, [.text "one"])] [.text "other"]
    let scope (value : Double) : MessageScope := ⟨[("n", .number value)], "en", {}, none⟩
    let output : MessageOutput := ⟨some "", default, .manual, []⟩
    ((scope far).addNode output node).text = some "far" ∧
      ((scope one).addNode output node).text = some "one" := by
  intro far one node scope output
  have faithful : output.ordinals.IsFaithful false := OrdinalFormatter.isFaithful_manual
  have farIsRead : (scope far).number? "n" = some far := rfl
  have oneIsRead : (scope one).number? "n" = some one := rfl
  have farNumber : far.number = (-(2 ^ 63 - 1024) : ℤ) := by
    rw [Double.number_mul_unitsPerOne, if_pos rfl]
    norm_num
  have oneNumber : one.number = 1 := by
    rw [Double.number_mul_unitsPerOne, if_neg Bool.false_ne_true, Nat.cast_one]
  have isOne : (scope one).categoryOf false false one = .one := by decide +kernel
  constructor
  · rcases addNode_plural_by_count false (scope far) output "n" false _ _ _ faithful with
      ⟨read, exactly, -⟩
    rcases read far farIsRead rfl with ⟨value, told⟩
    rw [value, told] at exactly
    rw [exactly _ [.text "far"] (by simp) farNumber (by norm_num) (by norm_num)]
    rfl
  · rcases addNode_plural_by_count false (scope one) output "n" false _ _ _ faithful with
      ⟨read, -, otherwise⟩
    rcases read one oneIsRead rfl with ⟨value, told⟩
    rw [value, told, isOne] at otherwise
    have apart : ∀ key ∈ [((-(2 ^ 63 - 1024) : ℤ), [MessageNode.text "far"])].map Prod.fst,
        -2 ^ 63 < key → key < 2 ^ 63 → one.number ≠ key := by
      intro key member
      rw [List.mem_singleton.mp member, oneNumber]
      norm_num
    rcases otherwise apart with ⟨ordinals, -, added⟩
    rw [added]
    rfl

end MessageScope

theorem Message.ofText_least :
    ofText "\x7bn, plural, =-9223372036854775808 \x7bleast\x7d other \x7bother\x7d\x7d" =
      [.plural "n" false [(-2 ^ 63, [.text "least"])] [] [.text "other"]] := by
  have none : AreBlanks [] := by simp [AreBlanks]
  have one : AreBlanks [' '] := by simp [AreBlanks, Text.isAsciiBlank]
  have head : WrittenHead "n" "plural" "n, plural".toList :=
    ⟨[], [], [' '], [], none, none, one, none, by decide, rfl⟩
  have sorted : AreCountBranches [(-2 ^ 63, [.text "least"])] [] :=
    ⟨List.pairwise_singleton _ _, by simp, .nil, by simp⟩
  have least : Written true true 1 [.text "least"] _ := .text (by decide) rfl .nil
  have other : Written true true 1 [.text "other"] _ := .text (by decide) rfl .nil
  have plural : WrittenClause false 0
      (.plural "n" false [(-2 ^ 63, [.text "least"])] [] [.text "other"]) _ :=
    .plural (by decide) head sorted (List.Perm.refl _)
      (.cons one one least (.cons one one other (.nil none)))
  exact ofText_eq_of_written (.clause plural .nil) (by decide)

/-- A branch for the least integer of 64 bits is read, but this count gets the other branch. -/
theorem MessageFormatter.format_plural_least :
    let text := "\x7bn, plural, =-9223372036854775808 \x7bleast\x7d other \x7bother\x7d\x7d"
    let least : Double := .finite true ⟨2 ^ 63 * unitsPerOne, by decide +kernel⟩
    Message.ofText text = [.plural "n" false [(-2 ^ 63, [.text "least"])] [] [.text "other"]] ∧
      least.isFinite = true ∧ least.number = (-2 ^ 63 : ℤ) ∧
      ∀ locale,
        ((ofParts default {} usualCapacity).format text [("n", .number least)] locale).1 =
          some "other" := by
  intro text least
  have isNumber : least.number = (-2 ^ 63 : ℤ) := by
    rw [Double.number_mul_unitsPerOne, if_pos rfl]
    norm_num
  refine ⟨Message.ofText_least, rfl, isNumber, ?_⟩
  intro locale
  let scope : MessageScope := ⟨[("n", .number least)], locale, {}, none⟩
  let start : MessageOutput := ⟨some "", default, .ofCapacity OrdinalFormatter.usualCapacity, []⟩
  have numbers : start.numbers.IsFaithful true :=
    NumberFormatter.isFaithful_ofCapacity NumberFormatter.usualCapacity
  have ordinals : start.ordinals.IsFaithful true :=
    OrdinalFormatter.isFaithful_ofCapacity OrdinalFormatter.usualCapacity
  have beyond : exactCount? (scope.count "n") = none := by
    have read : scope.number? "n" = some least := rfl
    rw [MessageScope.count_of_number? read rfl]
    decide +kernel
  have added : (scope.addNodes start (Message.ofText text)).text = some "other" := by
    rcases MessageScope.pluralBranch_of_category ordinals
        (by rw [beyond, Option.bind_none]) with ⟨after, -, branch⟩
    rw [Message.ofText_least, MessageScope.addNodes, MessageScope.addNode_plural, branch]
    rfl
  have faithful := isFaithful_ofParts numbers {} usualCapacity
  have empty : start.text = some "" := rfl
  exact (faithful.format_text empty numbers ordinals text _ locale).trans added

end LocalizedText
