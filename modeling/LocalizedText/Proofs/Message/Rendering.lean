import LocalizedText.Proofs.Message.Branches
import LocalizedText.Proofs.Parameter.Observation

/-!
# What the text of a message depends on

A message sees its parameters by what can be seen of them, and its formatters by the texts and
categories they yield. So parameters that are indistinguishable give the same text, and so do
formatters of which one can stand for the other and that stay so while a message is formatted. What
is told meanwhile may differ.
-/

namespace LocalizedText

/-- Relations between formatters that yield the same and stay related. -/
structure FormatterBisimulation (numbers : NumberFormatter → NumberFormatter → Prop)
    (ordinals : OrdinalFormatter → OrdinalFormatter → Prop) : Prop where
  format : ∀ {left right}, numbers left right → ∀ value locale options,
    (left.format value locale options).1 = (right.format value locale options).1 ∧
      numbers (left.format value locale options).2.1 (right.format value locale options).2.1
  category : ∀ {left right}, ordinals left right → ∀ value locale,
    (left.category value locale).1 = (right.category value locale).1 ∧
      ordinals (left.category value locale).2 (right.category value locale).2

theorem FormatterBisimulation.eq : FormatterBisimulation Eq Eq where
  format := by
    rintro formatter _ rfl value locale options
    exact ⟨rfl, rfl⟩
  category := by
    rintro formatter _ rfl value locale
    exact ⟨rfl, rfl⟩

section Related

variable {numbers : NumberFormatter → NumberFormatter → Prop}
  {ordinals : OrdinalFormatter → OrdinalFormatter → Prop}

/-- Outputs with the same text and related formatters. -/
structure MessageOutput.Related (numbers : NumberFormatter → NumberFormatter → Prop)
    (ordinals : OrdinalFormatter → OrdinalFormatter → Prop) (left right : MessageOutput) :
    Prop where
  text : left.text = right.text
  numbers : numbers left.numbers right.numbers
  ordinals : ordinals left.ordinals right.ordinals

/-- Scopes that only differ in parameters, which are indistinguishable. -/
structure MessageScope.Related (left right : MessageScope) : Prop where
  parameters : left.parameters.Indistinguishable right.parameters
  locale : left.locale = right.locale
  rules : left.rules = right.rules
  pound : left.pound = right.pound

namespace MessageOutput.Related

variable {left right : MessageOutput}

theorem append (related : Related numbers ordinals left right) (text : String) :
    Related numbers ordinals (left.append text) (right.append text) :=
  ⟨congrArg (Option.map (· ++ text)) related.text, related.numbers, related.ordinals⟩

theorem tell (related : Related numbers ordinals left right) (leftEvents rightEvents : List Event) :
    Related numbers ordinals (left.tell leftEvents) (right.tell rightEvents) :=
  ⟨related.text, related.numbers, related.ordinals⟩

theorem appendNumber (related : Related numbers ordinals left right)
    (bisimulation : FormatterBisimulation numbers ordinals) (value : Double) (locale : String)
    (options : NumberOptions) :
    Related numbers ordinals (left.appendNumber value locale options)
      (right.appendNumber value locale options) := by
  rcases bisimulation.format related.numbers value locale options with ⟨written, after⟩
  refine ⟨?_, after, related.ordinals⟩
  simp only [MessageOutput.appendNumber, MessageOutput.tell, related.text, written]

end MessageOutput.Related

namespace MessageScope.Related

variable {left right : MessageScope}

theorem refl (scope : MessageScope) : scope.Related scope :=
  ⟨.refl scope.parameters, rfl, rfl, rfl⟩

theorem number? (related : left.Related right) (name : String) :
    left.number? name = right.number? name :=
  (related.parameters name.toList).2

theorem selector? (related : left.Related right) (name : String) :
    left.selector? name = right.selector? name :=
  (related.parameters name.toList).1

theorem count (related : left.Related right) (name : String) :
    left.count name = right.count name := by
  unfold MessageScope.count
  rw [related.number?]

theorem withPound (related : left.Related right) (pound : Option Double) :
    MessageScope.Related { left with pound } { right with pound } :=
  ⟨related.parameters, related.locale, related.rules, rfl⟩

end MessageScope.Related

/-- Indistinguishable parameters resolve a path to the same text. -/
theorem Template.resolve?_congr {left right : Parameters} (same : left.Indistinguishable right)
    (path : List Char) : Template.resolve? left path = Template.resolve? right path := by
  unfold Template.resolve?
  rw [(same path).1]

namespace MessageScope

variable {leftScope rightScope : MessageScope} {left right : MessageOutput}

/-- Related scopes choose the same branch by a count, and it is added to related outputs. -/
theorem pluralBranch_related (bisimulation : FormatterBisimulation numbers ordinals)
    (scopes : leftScope.Related rightScope) (outputs : left.Related numbers ordinals right)
    (name : String) (ordinal : Bool) (exact : List (Int × List MessageNode))
    (categories : List (PluralCategory × List MessageNode)) (other : List MessageNode) :
    (leftScope.pluralBranch left name ordinal exact categories other).1.Related numbers ordinals
        (rightScope.pluralBranch right name ordinal exact categories other).1 ∧
      (leftScope.pluralBranch left name ordinal exact categories other).2 =
        (rightScope.pluralBranch right name ordinal exact categories other).2 := by
  have told := outputs.tell (leftScope.countEvents name) (rightScope.countEvents name)
  unfold pluralBranch
  simp only [scopes.count, scopes.locale, scopes.rules]
  split
  · exact ⟨told, rfl⟩
  · split
    · rcases bisimulation.category told.ordinals (rightScope.count name) rightScope.locale with
        ⟨same, after⟩
      rw [same]
      exact ⟨⟨told.text, told.numbers, after⟩, rfl⟩
    · exact ⟨told, rfl⟩

theorem Related.selectBranch (scopes : leftScope.Related rightScope) (name : String)
    (cases : List (String × List MessageNode)) (other : List MessageNode) :
    leftScope.selectBranch name cases other = rightScope.selectBranch name cases other := by
  unfold MessageScope.selectBranch
  rw [scopes.selector?]

/-- The parts of a message add the same text for related scopes. -/
theorem addNodes_related (bisimulation : FormatterBisimulation numbers ordinals)
    (message : Message) : ∀ (leftScope rightScope : MessageScope) (left right : MessageOutput),
    leftScope.Related rightScope → left.Related numbers ordinals right →
    (leftScope.addNodes left message).Related numbers ordinals
      (rightScope.addNodes right message) := by
  induction message using Message.bodiesInduction with
  | nil =>
      intro leftScope rightScope left right scopes outputs
      exact outputs
  | cons node rest inBodies inRest =>
      intro leftScope rightScope left right scopes outputs
      have added : (leftScope.addNode left node).Related numbers ordinals
          (rightScope.addNode right node) := by
        cases node with
        | text content => exact outputs.append content
        | argument name source =>
            simp only [addNode, Template.resolve?_congr scopes.parameters]
            exact (outputs.append _).tell _ _
        | pound =>
            simp only [addNode, scopes.pound, scopes.locale]
            cases rightScope.pound with
            | none => exact outputs.append "#"
            | some value => exact outputs.appendNumber bisimulation value _ _
        | number name style source =>
            simp only [addNode, scopes.number?, scopes.locale]
            cases rightScope.number? name with
            | none => exact (outputs.append source).tell _ _
            | some value => exact outputs.appendNumber bisimulation value _ _
        | plural name ordinal exact categories other =>
            rcases pluralBranch_related bisimulation scopes outputs name ordinal exact categories
              other with ⟨inside, chosen⟩
            rw [addNode_plural, addNode_plural, chosen, scopes.count]
            exact inBodies _ (pluralBranch_mem_bodies ..) _ _ _ _ (scopes.withPound _) inside
        | select name cases other =>
            rw [addNode_select, addNode_select, scopes.selectBranch]
            exact inBodies _ (selectBranch_mem_bodies ..) _ _ _ _ scopes outputs
      cases before : right.text with
      | none =>
          rw [addNodes_of_endless (outputs.text.trans before), addNodes_of_endless before]
          exact outputs
      | some text =>
          rw [addNodes_cons (outputs.text.trans before), addNodes_cons before]
          exact inRest _ _ _ _ scopes added

end MessageScope

namespace MessageFormatter

variable {left right : MessageFormatter}

/-- Reading a message changes nothing but the remembered messages. -/
theorem read_formatter (formatter : MessageFormatter) (text : String) :
    ∃ messages, (formatter.read text).2.1 = { formatter with messages } := by
  unfold read
  split
  · exact ⟨formatter.messages, rfl⟩
  · split
    · exact ⟨_, rfl⟩
    · exact ⟨_, rfl⟩

/--
Formatters that read the same message and yield the same give the same text for indistinguishable
parameters, and can stand for each other afterwards.
-/
theorem format_related (bisimulation : FormatterBisimulation numbers ordinals) {text : String}
    {leftParameters rightParameters : Parameters}
    (same : leftParameters.Indistinguishable rightParameters)
    (message : (left.read text).1 = (right.read text).1)
    (numbersBefore : numbers left.numbers right.numbers)
    (ordinalsBefore : ordinals left.ordinals right.ordinals)
    (rules : left.rules = right.rules) (locale : String) :
    (left.format text leftParameters locale).1 = (right.format text rightParameters locale).1 ∧
      numbers (left.format text leftParameters locale).2.1.numbers
        (right.format text rightParameters locale).2.1.numbers ∧
      ordinals (left.format text leftParameters locale).2.1.ordinals
        (right.format text rightParameters locale).2.1.ordinals := by
  rcases left.read_formatter text with ⟨leftMessages, leftRead⟩
  rcases right.read_formatter text with ⟨rightMessages, rightRead⟩
  unfold format
  simp only [leftRead, rightRead, message]
  have scopes : MessageScope.Related ⟨leftParameters, locale, left.rules, none⟩
      ⟨rightParameters, locale, right.rules, none⟩ :=
    ⟨same, rfl, rules, rfl⟩
  have outputs : MessageOutput.Related numbers ordinals
      ⟨some "", left.numbers, left.ordinals, (left.read text).2.2⟩
      ⟨some "", right.numbers, right.ordinals, (right.read text).2.2⟩ :=
    ⟨rfl, numbersBefore, ordinalsBefore⟩
  have added := MessageScope.addNodes_related bisimulation (right.read text).1 _ _ _ _ scopes
    outputs
  exact ⟨added.text, added.numbers, added.ordinals⟩

end MessageFormatter

end Related

end LocalizedText
