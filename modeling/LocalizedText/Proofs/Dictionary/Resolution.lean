import LocalizedText.Dictionary.Resolution

/-!
# Which locale supplies what is found

What is found for a key comes from the locale that was asked for, or else from the fallback. Nothing is
found when neither of them has anything for the key.
-/

namespace LocalizedText

namespace Dictionary

/-- A locale supplies what is found for a key: the one asked for, or else the fallback. -/
def Supplies (dictionary : Dictionary) (locale fallback key supplier : String)
    (content : Content) : Prop :=
  dictionary.resolveIn? supplier key = some ⟨content, supplier⟩ ∧
    (supplier = locale ∨ supplier = fallback ∧ dictionary.resolveIn? locale key = none)

variable {dictionary : Dictionary} {locale fallback key supplier : String} {content : Content}

theorem locale_of_resolveIn? {resolution : Resolution}
    (found : dictionary.resolveIn? locale key = some resolution) :
    resolution.locale = locale := by
  simp only [resolveIn?, Option.bind_eq_bind, Option.bind_eq_some_iff, Option.pure_def,
    Option.some.injEq] at found
  rcases found with ⟨_, _, _, _, _, _, rfl⟩
  rfl

theorem resolve?_eq_none_iff :
    dictionary.resolve? locale fallback key = none ↔
      dictionary.resolveIn? locale key = none ∧ dictionary.resolveIn? fallback key = none := by
  unfold resolve?
  cases own : dictionary.resolveIn? locale key with
  | some resolution => simp
  | none =>
      by_cases same : fallback = locale
      · simp [same, own]
      · simp [same]

theorem resolve?_eq_some_iff :
    dictionary.resolve? locale fallback key = some ⟨content, supplier⟩ ↔
      dictionary.Supplies locale fallback key supplier content := by
  unfold resolve? Supplies
  constructor
  · intro found
    cases own : dictionary.resolveIn? locale key with
    | some resolution =>
        simp only [own, Option.some.injEq] at found
        subst found
        have asked := locale_of_resolveIn? own
        simp only at asked
        subst asked
        exact ⟨own, Or.inl rfl⟩
    | none =>
        simp only [own] at found
        split at found
        · cases found
        · have other := locale_of_resolveIn? found
          simp only at other
          subst other
          exact ⟨found, Or.inr ⟨rfl, rfl⟩⟩
  · rintro ⟨found, rfl | ⟨rfl, missing⟩⟩
    · simp [found]
    · have apart : supplier ≠ locale := by
        rintro rfl
        rw [found] at missing
        cases missing
      simp [missing, apart, found]

/-- What a locale does not have itself is looked up as in the fallback alone. -/
theorem resolve?_of_absent (absent : dictionary.resolveIn? locale key = none) :
    dictionary.resolve? locale fallback key = dictionary.resolve? fallback fallback key := by
  unfold resolve?
  rw [absent]
  by_cases same : fallback = locale
  · simp [same, absent]
  · cases dictionary.resolveIn? fallback key <;> simp [same]

theorem Supplies.eq_fallback {supplier : String} {content : Content}
    (supplied : dictionary.Supplies locale fallback key supplier content)
    (absent : dictionary.resolveIn? locale key = none) : supplier = fallback := by
  rcases supplied with ⟨found, rfl | ⟨same, -⟩⟩
  · rw [absent] at found
    cases found
  · exact same

end Dictionary

end LocalizedText
