import LocalizedText.Plural.Category

/-!
# Plural forms

An entry may have a text for each category. The text of `other` stands in for every category without
a text of its own; without it the forms are incomplete.
-/

namespace LocalizedText

/-- The texts of an entry by category. -/
structure PluralForms where
  zero : Option String := none
  one : Option String := none
  two : Option String := none
  few : Option String := none
  many : Option String := none
  other : Option String := none
deriving DecidableEq

instance : Inhabited PluralForms := ⟨{}⟩

namespace PluralForms

/-- The text of a category itself. -/
def get? (forms : PluralForms) : PluralCategory → Option String
  | .zero => forms.zero
  | .one => forms.one
  | .two => forms.two
  | .few => forms.few
  | .many => forms.many
  | .other => forms.other

/-- The forms with the text of a category set. -/
def insert (forms : PluralForms) (category : PluralCategory) (text : String) : PluralForms :=
  match category with
  | .zero => { forms with zero := some text }
  | .one => { forms with one := some text }
  | .two => { forms with two := some text }
  | .few => { forms with few := some text }
  | .many => { forms with many := some text }
  | .other => { forms with other := some text }

@[simp]
theorem get?_insert (forms : PluralForms) (category wanted : PluralCategory) (text : String) :
    (forms.insert category text).get? wanted =
      if wanted = category then some text else forms.get? wanted := by
  cases category <;> cases wanted <;> rfl

/-- The text of a category, or the one of `other` in its place. -/
def select (forms : PluralForms) (category : PluralCategory) : Option String :=
  forms.get? category <|> forms.other

/-- There is a text for every category. -/
def isComplete (forms : PluralForms) : Bool :=
  forms.other.isSome

/-- The categories with a text of their own. -/
def categories (forms : PluralForms) : List PluralCategory :=
  PluralCategory.all.filter fun category => (forms.get? category).isSome

/-- Forms are complete exactly when every category selects a text. -/
theorem isComplete_iff (forms : PluralForms) :
    forms.isComplete = true ↔ ∀ category, (forms.select category).isSome = true := by
  constructor
  · intro complete category
    simp only [select]
    cases forms.get? category with
    | none => simpa [isComplete] using complete
    | some => rfl
  · intro every
    simpa [select, get?, isComplete] using every .other

end PluralForms

end LocalizedText
