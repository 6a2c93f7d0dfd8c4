import LocalizedText.Event
import LocalizedText.Keyed
import LocalizedText.Locale
import LocalizedText.Number.Text
import LocalizedText.Plural.Category
import LocalizedText.Text.Quoted

/-!
# Plural rules

A plural rule sorts natural numbers into categories. Counts are doubles: the integer below a count
is taken without its sign, up to the greatest number of 64 bits, and a count that is not finite is
taken for zero.
-/

namespace LocalizedText

/-- A rule that sorts counts into categories. -/
inductive PluralRule where
  /-- `one` for 1. -/
  | english
  /-- `one` for 0 and 1. -/
  | french
  /-- `zero`, `one` and `two` for these numbers, `few` and `many` by the last two digits. -/
  | arabic
  /-- `one`, `few` and `many` by the last digit, apart from the numbers around twelve. -/
  | russian
  /-- `one` for 1 only, otherwise like Russian. -/
  | polish
  /-- Always `other`. -/
  | uniform
  /-- A rule given by the caller. -/
  | custom (categorize : Nat → PluralCategory)

namespace PluralRule

def name : PluralRule → String
  | english => "English"
  | french => "French"
  | arabic => "Arabic"
  | russian => "Russian"
  | polish => "Polish"
  | uniform => "Cjk"
  | custom _ => "Custom(<fn>)"

def ofLanguage (language : String) : PluralRule :=
  if language = "fr" then french
  else if language = "ar" then arabic
  else if language = "ru" then russian
  else if language = "pl" then polish
  else if language = "zh" ∨ language = "ja" then uniform
  else english

/-- The rule for a locale tag. -/
def ofLocale (tag : String) : PluralRule :=
  ofLanguage (Locale.language tag)

/-- The numbers that end in two to four, but not in twelve to fourteen. -/
def isSlavicFew (count : Nat) : Bool :=
  2 ≤ count % 10 && count % 10 ≤ 4 && !(12 ≤ count % 100 && count % 100 ≤ 14)

/-- The category of a natural number. -/
def categorize (rule : PluralRule) (count : Nat) : PluralCategory :=
  match rule with
  | english => if count = 1 then .one else .other
  | french => if count ≤ 1 then .one else .other
  | arabic =>
      if count = 0 then .zero
      else if count = 1 then .one
      else if count = 2 then .two
      else if 3 ≤ count % 100 ∧ count % 100 ≤ 10 then .few
      else if 11 ≤ count % 100 then .many
      else .other
  | russian =>
      if count % 10 = 1 ∧ count % 100 ≠ 11 then .one
      else if isSlavicFew count then .few
      else .many
  | polish =>
      if count = 1 then .one
      else if isSlavicFew count then .few
      else .many
  | uniform => .other
  | custom categorize => categorize count

end PluralRule

namespace PluralCount

/-- The greatest natural number that a count is taken for. -/
def greatest : Nat := 2 ^ 64 - 1

/-- The natural number that a count is taken for. -/
def normalize : Double → Nat
  | .finite negative magnitude => min (Double.floorMagnitude negative magnitude) greatest
  | _ => 0

/-- How a value that is not finite is told. -/
def describe : Double → String
  | .infinite negative => if negative then "-inf" else "inf"
  | value => value.display

/-- A warning about a count that is not finite. -/
def normalizeEvents (count : Double) : List Event :=
  if count.isFinite then []
  else
    [{ target := "lexis.plural"
       level := .warn
       message := "non-finite plural count treated as 0"
       fields := [("count", describe count)] }]

end PluralCount

/-- The category of a count by the rule of a locale. -/
def PluralRule.select (locale : String) (count : Double) : PluralCategory :=
  (PluralRule.ofLocale locale).categorize (PluralCount.normalize count)

/-- The rules of the languages, some of them replaced by the caller. -/
structure PluralRules where
  /-- The replaced rules by language. -/
  overrides : List (String × PluralRule) := []

instance : Inhabited PluralRules := ⟨{}⟩

namespace PluralRules

/-- The rules with the one for the language of a tag replaced. -/
def withOverride (rules : PluralRules) (tag : String) (rule : PluralRule) : PluralRules :=
  ⟨Keyed.insert (Locale.language tag) rule rules.overrides⟩

/-- The rule for a locale tag. -/
def ruleFor (rules : PluralRules) (locale : String) : PluralRule :=
  (rules.overrides.lookup (Locale.language locale)).getD (PluralRule.ofLocale locale)

/-- The category of a count in a locale. -/
def select (rules : PluralRules) (locale : String) (count : Double) : PluralCategory :=
  (rules.ruleFor locale).categorize (PluralCount.normalize count)

def describe (rules : PluralRules) : String :=
  let overrides := rules.overrides.map fun (language, rule) =>
    Text.quoted language ++ ": " ++ rule.name
  "PluralRules \x7b overrides: \x7b" ++ ", ".intercalate overrides ++ "\x7d \x7d"

end PluralRules

end LocalizedText
