import LocalizedText.Cache.Insertion
import LocalizedText.Locale
import LocalizedText.Number.Text
import LocalizedText.Plural.Category

/-!
# Ordinal numbers

A number becomes an ordinal by a suffix: `1st`, `2e`, `3º`. Rules give a number an ordinal category,
and a category its suffix. Without native rules only the English ones and a common suffix for the
Romance languages are known.
-/

namespace LocalizedText

/-- The ordinal rule of a language. -/
inductive OrdinalRule where
  /-- By the last digit, apart from 11, 12 and 13. -/
  | english
  /-- `one` for 1. -/
  | french
  /-- One suffix for all. -/
  | romance
  /-- No suffix. -/
  | plain
deriving DecidableEq

namespace OrdinalRule

def name : OrdinalRule → String
  | english => "English"
  | french => "French"
  | romance => "Romance"
  | plain => "Plain"

/-- The native rule for a locale tag. -/
def ofLocale (tag : String) : OrdinalRule :=
  let language := Locale.language tag
  if language = "en" then english
  else if language = "fr" then french
  else if language = "es" ∨ language = "it" ∨ language = "pt" then romance
  else plain

/-- The rule for a locale tag without native rules. -/
def manualOfLocale (tag : String) : OrdinalRule :=
  if Locale.language tag = "en" then english
  else if Locale.isRomance tag then romance
  else plain

/-- The category of a natural number. -/
def categorize (rule : OrdinalRule) (number : Nat) : PluralCategory :=
  match rule with
  | english =>
      if 11 ≤ number % 100 ∧ number % 100 ≤ 13 then .other
      else if number % 10 = 1 then .one
      else if number % 10 = 2 then .two
      else if number % 10 = 3 then .few
      else .other
  | french => if number = 1 then .one else .other
  | romance => .other
  | plain => .other

/-- The greatest natural number that a value is taken for. -/
def greatest : Nat := 2 ^ 64 - 1

/-- The category of a value; one that is not a whole number has `other`. -/
def category (rule : OrdinalRule) : Double → PluralCategory
  | .finite _ magnitude =>
      if magnitude.isIntegral then rule.categorize (min magnitude.integerPart greatest)
      else .other
  | _ => .other

def suffix (rule : OrdinalRule) (category : PluralCategory) : String :=
  match rule, category with
  | english, .one => "st"
  | english, .two => "nd"
  | english, .few => "rd"
  | english, _ => "th"
  | french, .one => "er"
  | french, _ => "e"
  | romance, _ => "º"
  | plain, _ => ""

end OrdinalRule

/-- A formatter of ordinals that remembers the rule of every locale tag it was asked for. -/
structure OrdinalFormatter where
  rules : InsertionCache String OrdinalRule
  native : Bool

namespace OrdinalFormatter

/-- The number of rules that are usually remembered. -/
def usualCapacity : Nat := 100

/-- A formatter with native rules. -/
def ofCapacity (capacity : Nat) : OrdinalFormatter :=
  ⟨.empty capacity, true⟩

/-- A formatter without native rules. -/
def manual : OrdinalFormatter :=
  ⟨.empty usualCapacity, false⟩

/-- The rule for a locale tag. -/
def ruleFor (native : Bool) (locale : String) : OrdinalRule :=
  if native then OrdinalRule.ofLocale locale else OrdinalRule.manualOfLocale locale

/-- The remembered rule for a locale tag. -/
def rule (formatter : OrdinalFormatter) (locale : String) : OrdinalRule × OrdinalFormatter :=
  match formatter.rules.get? locale with
  | some rule => (rule, formatter)
  | none =>
      let rule := ruleFor formatter.native locale
      (rule, { formatter with rules := (formatter.rules.insert locale rule).2 })

/-- The ordinal category of a value. -/
def category (formatter : OrdinalFormatter) (value : Double) (locale : String) :
    PluralCategory × OrdinalFormatter :=
  let (rule, formatter) := formatter.rule locale
  (rule.category value, formatter)

/-- The value with its ordinal suffix; one that is not finite has none. -/
def format (formatter : OrdinalFormatter) (value : Double) (locale : String) :
    String × OrdinalFormatter :=
  if value.isFinite then
    let (rule, formatter) := formatter.rule locale
    (value.display ++ rule.suffix (rule.category value), formatter)
  else (value.display, formatter)

def clear (formatter : OrdinalFormatter) : OrdinalFormatter :=
  { formatter with rules := formatter.rules.clear }

def describe (formatter : OrdinalFormatter) : String :=
  s!"OrdinalFormatter \x7b native: {formatter.native}, cache: {formatter.rules.usage.describe} \x7d"

end OrdinalFormatter

end LocalizedText
