/-!
# Plural categories

The six classes into which the languages of the world sort counts. Each language uses some of them.
-/

namespace LocalizedText

/-- A class of counts. -/
inductive PluralCategory where
  | zero
  | one
  | two
  | few
  | many
  | other
deriving DecidableEq

namespace PluralCategory

/-- The categories in their usual order. -/
def all : List PluralCategory := [zero, one, two, few, many, other]

/-- The place of a category in the usual order. -/
def index : PluralCategory → Nat
  | zero => 0
  | one => 1
  | two => 2
  | few => 3
  | many => 4
  | other => 5

/-- The keyword of a category. -/
def name : PluralCategory → String
  | zero => "zero"
  | one => "one"
  | two => "two"
  | few => "few"
  | many => "many"
  | other => "other"

/-- The category that a word is the keyword of. -/
def ofName? (word : String) : Option PluralCategory :=
  all.find? (·.name == word)

/-- The word is the keyword of a category. -/
def isKeyword (word : String) : Bool :=
  (ofName? word).isSome

theorem ofName?_name (category : PluralCategory) : ofName? category.name = some category := by
  cases category <;> decide

/-- A category is the one named by a word exactly when the word is its keyword. -/
theorem ofName?_eq_some_iff {word : String} {category : PluralCategory} :
    ofName? word = some category ↔ word = category.name := by
  constructor
  · intro found
    have matching := List.find?_some found
    exact (beq_iff_eq.1 matching).symm
  · rintro rfl
    exact ofName?_name category

instance : LT PluralCategory := ⟨fun left right => left.index < right.index⟩

instance (left right : PluralCategory) : Decidable (left < right) :=
  inferInstanceAs (Decidable (left.index < right.index))

/-- The message for a word that is not a keyword. -/
def unknownMessage (word : String) : String :=
  s!"unknown plural category: {word}"

end PluralCategory

end LocalizedText
