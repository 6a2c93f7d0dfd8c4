import LocalizedText.Proofs.Message.Rendering
import LocalizedText.Proofs.Number.Faithful

/-!
# Formatters that remember faithfully

A formatter is faithful when every plan, rule and message that it remembers is the one that it would
make anew. Faithful formatters that agree on the use of locale data yield the same, whatever they
remember, and formatting leaves them faithful. So the text of a message depends on its parameters,
its locale and the plural rules only.
-/

namespace LocalizedText

namespace OrdinalFormatter

/-- Whether the formatter has native rules is known, and it remembers the rules themselves. -/
structure IsFaithful (native : Bool) (formatter : OrdinalFormatter) : Prop where
  native_eq : formatter.native = native
  rules : formatter.rules.Remembers fun locale rule => rule = ruleFor native locale

variable {native : Bool} {formatter : OrdinalFormatter}

theorem isFaithful_ofCapacity (capacity : Nat) : (ofCapacity capacity).IsFaithful true :=
  ⟨rfl, InsertionCache.remembers_empty capacity⟩

theorem isFaithful_manual : manual.IsFaithful false :=
  ⟨rfl, InsertionCache.remembers_empty usualCapacity⟩

/-- The rule does not depend on what a faithful formatter remembers. -/
theorem IsFaithful.rule (faithful : formatter.IsFaithful native) (locale : String) :
    (formatter.rule locale).1 = ruleFor native locale ∧
      (formatter.rule locale).2.IsFaithful native := by
  rcases faithful with ⟨rfl, rules⟩
  unfold OrdinalFormatter.rule
  cases found : formatter.rules.get? locale with
  | some rule => exact ⟨rules locale rule found, rfl, rules⟩
  | none => exact ⟨rfl, rfl, rules.insert rfl⟩

theorem IsFaithful.category (faithful : formatter.IsFaithful native) (value : Double)
    (locale : String) :
    (formatter.category value locale).1 = (ruleFor native locale).category value ∧
      (formatter.category value locale).2.IsFaithful native := by
  rcases faithful.rule locale with ⟨rule, after⟩
  rw [← rule]
  exact ⟨rfl, after⟩

theorem IsFaithful.format (faithful : formatter.IsFaithful native) (value : Double)
    (locale : String) :
    (formatter.format value locale).1 =
        (if value.isFinite then
          value.display ++
            (ruleFor native locale).suffix ((ruleFor native locale).category value)
        else value.display) ∧
      (formatter.format value locale).2.IsFaithful native := by
  rcases faithful.rule locale with ⟨rule, after⟩
  unfold OrdinalFormatter.format
  split
  · rw [← rule]
    exact ⟨rfl, after⟩
  · exact ⟨rfl, faithful⟩

theorem IsFaithful.clear (faithful : formatter.IsFaithful native) :
    formatter.clear.IsFaithful native :=
  ⟨faithful.native_eq, InsertionCache.remembers_empty _⟩

end OrdinalFormatter

/-- Faithful formatters can stand for each other. -/
theorem FormatterBisimulation.faithful (native : Bool) :
    FormatterBisimulation
      (fun left right => left.IsFaithful native ∧ right.IsFaithful native)
      (fun left right => left.IsFaithful native ∧ right.IsFaithful native) where
  format := by
    intro left right faithful value locale options
    rcases faithful.1.format value locale options with ⟨leftText, leftAfter⟩
    rcases faithful.2.format value locale options with ⟨rightText, rightAfter⟩
    exact ⟨leftText.trans rightText.symm, leftAfter, rightAfter⟩
  category := by
    intro left right faithful value locale
    rcases faithful.1.category value locale with ⟨leftCategory, leftAfter⟩
    rcases faithful.2.category value locale with ⟨rightCategory, rightAfter⟩
    exact ⟨leftCategory.trans rightCategory.symm, leftAfter, rightAfter⟩

namespace MessageFormatter

/-- All that the formatter remembers is what it would make anew. -/
structure IsFaithful (native : Bool) (rules : PluralRules) (formatter : MessageFormatter) :
    Prop where
  numbers : formatter.numbers.IsFaithful native
  ordinals : formatter.ordinals.IsFaithful native
  rules_eq : formatter.rules = rules
  messages : ∀ cache ∈ formatter.messages,
    cache.Remembers fun text message => message = Message.ofText text

variable {native : Bool} {rules : PluralRules} {formatter left right : MessageFormatter}

theorem isFaithful_ofParts {numbers : NumberFormatter} (faithful : numbers.IsFaithful native)
    (rules : PluralRules) (capacity : Nat) :
    (ofParts numbers rules capacity).IsFaithful native rules where
  numbers := faithful
  ordinals := by
    rw [← faithful.native_eq]
    unfold ofParts
    simp only
    cases numbers.native
    · exact OrdinalFormatter.isFaithful_manual
    · exact OrdinalFormatter.isFaithful_ofCapacity _
  rules_eq := rfl
  messages := by
    intro cache present
    simp only [ofParts] at present
    split at present
    · cases present
    · cases present
      exact RecencyCache.remembers_empty capacity

/-- A faithful formatter reads a message like one that remembers nothing, and stays faithful. -/
theorem IsFaithful.read (faithful : formatter.IsFaithful native rules) (text : String) :
    (formatter.read text).1 = Message.ofText text ∧
      (formatter.read text).2.1.IsFaithful native rules := by
  unfold MessageFormatter.read
  split
  · exact ⟨rfl, faithful⟩
  · next messages present =>
      have remembers := faithful.messages messages present
      have before := remembers.get text
      split
      · next message after found =>
          rw [found] at before
          refine ⟨before.1 message rfl, faithful.numbers, faithful.ordinals, faithful.rules_eq, ?_⟩
          rintro _ ⟨⟩
          exact before.2
      · next after found =>
          rw [found] at before
          refine ⟨rfl, faithful.numbers, faithful.ordinals, faithful.rules_eq, ?_⟩
          rintro _ ⟨⟩
          exact before.2.set rfl

/-- Faithful formatters give the same text for parameters that cannot be told apart. -/
theorem IsFaithful.format_eq (leftFaithful : left.IsFaithful native rules)
    (rightFaithful : right.IsFaithful native rules) {leftParameters rightParameters : Parameters}
    (same : leftParameters.Indistinguishable rightParameters) (text locale : String) :
    (left.format text leftParameters locale).1 = (right.format text rightParameters locale).1 := by
  have message := (leftFaithful.read text).1.trans (rightFaithful.read text).1.symm
  exact (format_related (FormatterBisimulation.faithful native) same message
    ⟨leftFaithful.numbers, rightFaithful.numbers⟩ ⟨leftFaithful.ordinals, rightFaithful.ordinals⟩
    (leftFaithful.rules_eq.trans rightFaithful.rules_eq.symm) locale).1

/-- Formatting a message leaves a formatter faithful. -/
theorem IsFaithful.format (faithful : formatter.IsFaithful native rules) (text : String)
    (parameters : Parameters) (locale : String) :
    (formatter.format text parameters locale).2.1.IsFaithful native rules := by
  have same : parameters.Indistinguishable parameters := .refl parameters
  have message : (formatter.read text).1 = (formatter.read text).1 := rfl
  rcases format_related (FormatterBisimulation.faithful native) same message
    ⟨faithful.numbers, faithful.numbers⟩ ⟨faithful.ordinals, faithful.ordinals⟩ rfl locale with
    ⟨-, numbers, ordinals⟩
  have after := (faithful.read text).2
  exact ⟨numbers.1, ordinals.1, after.rules_eq, after.messages⟩

theorem IsFaithful.clear (faithful : formatter.IsFaithful native rules) :
    formatter.clear.IsFaithful native rules := by
  refine ⟨faithful.numbers, faithful.ordinals, faithful.rules_eq, ?_⟩
  intro cache present
  rcases Option.map_eq_some_iff.mp present with ⟨before, _, rfl⟩
  exact RecencyCache.remembers_empty before.capacity

end MessageFormatter

end LocalizedText
