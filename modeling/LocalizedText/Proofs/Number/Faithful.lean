import LocalizedText.Number.Formatter
import LocalizedText.Proofs.Cache.Remembering

/-!
# Number formatters that remember faithfully

A number formatter is faithful when every plan that it remembers is the one that it would make anew.
What a faithful formatter writes, and whether it returns at all, depends on the use of locale data
only, not on what it remembers, and whatever it does leaves it faithful.
-/

namespace LocalizedText

namespace NumberFormatter

/-- Whether the formatter uses locale data is known, and it remembers the plans themselves. -/
structure IsFaithful (native : Bool) (formatter : NumberFormatter) : Prop where
  native_eq : formatter.native = native
  plans : formatter.plans.Remembers fun key plan => NumberPlan.resolve key.1 key.2 = .ok plan

variable {native : Bool} {formatter : NumberFormatter}

theorem isFaithful_ofCapacity (capacity : Nat) : (ofCapacity capacity).IsFaithful true :=
  ⟨rfl, InsertionCache.remembers_empty capacity⟩

theorem isFaithful_manual : manual.IsFaithful false :=
  ⟨rfl, InsertionCache.remembers_empty 0⟩

/-- The plan does not depend on what a faithful formatter remembers. -/
theorem IsFaithful.plan? (faithful : formatter.IsFaithful native) (locale : String)
    (options : NumberOptions) :
    (formatter.plan? locale options).1 =
        (if native then (NumberPlan.resolve locale options).toOption else none) ∧
      (formatter.plan? locale options).2.1.IsFaithful native := by
  rcases faithful with ⟨rfl, plans⟩
  unfold NumberFormatter.plan?
  split
  · split
    · next plan found =>
        rw [plans _ _ found]
        exact ⟨rfl, rfl, plans⟩
    · split
      · next plan resolved =>
          rw [resolved]
          exact ⟨rfl, rfl, plans.insert resolved⟩
      · next error failed =>
          rw [failed]
          exact ⟨rfl, rfl, plans⟩
  · exact ⟨rfl, rfl, plans⟩

theorem IsFaithful.format (faithful : formatter.IsFaithful native) (value : Double)
    (locale : String) (options : NumberOptions) :
    (formatter.format value locale options).1 =
        (if value.isFinite then
          write (if native then (NumberPlan.resolve locale options).toOption else none) value
            options
        else some value.display) ∧
      (formatter.format value locale options).2.1.IsFaithful native := by
  rcases faithful.plan? locale options with ⟨plan, after⟩
  unfold NumberFormatter.format
  split
  · rw [← plan]
    exact ⟨rfl, after⟩
  · exact ⟨rfl, faithful⟩

/-- A call never returns only where locale data is used and the plan has no text for the value. -/
theorem IsFaithful.format_eq_none_iff (faithful : formatter.IsFaithful native) (value : Double)
    (locale : String) (options : NumberOptions) :
    (formatter.format value locale options).1 = none ↔
      native = true ∧ value.isFinite = true ∧
        ∃ plan, NumberPlan.resolve locale options = .ok plan ∧ plan.format? value = none := by
  rw [(faithful.format value locale options).1]
  cases finite : value.isFinite with
  | false => simp
  | true =>
      cases native with
      | false => simp [write]
      | true => cases NumberPlan.resolve locale options <;> simp [write, Except.toOption]

theorem IsFaithful.formatRange (faithful : formatter.IsFaithful native) (first last : Double)
    (locale : String) (options : NumberOptions) :
    (formatter.formatRange first last locale options).1 =
        writeRange (if native then (NumberPlan.resolve locale options).toOption else none) first
          last options ∧
      (formatter.formatRange first last locale options).2.1.IsFaithful native := by
  rcases faithful.plan? locale options with ⟨plan, after⟩
  rw [← plan]
  exact ⟨rfl, after⟩

theorem IsFaithful.clear (faithful : formatter.IsFaithful native) :
    formatter.clear.IsFaithful native :=
  ⟨faithful.native_eq, InsertionCache.remembers_empty _⟩

end NumberFormatter

end LocalizedText
