import LocalizedText.Text.Quoted

/-!
# Format errors

Why options cannot be resolved for a locale.
-/

namespace LocalizedText

/-- What may be missing from the data of a locale. -/
inductive FormatFeature where
  | longUnitNames
  | compactForm
deriving DecidableEq

/-- Digit bounds that contradict each other or are out of range. -/
inductive DigitFault where
  | integer (minimum : Nat)
  | significant (minimum maximum : Nat)
  | fraction (minimum maximum : Nat)
deriving DecidableEq

/-- Why options cannot be resolved for a locale. -/
inductive FormatError where
  | invalidCurrency (code : String)
  | unknownUnit (unit : String)
  | missingCurrency
  | missingUnit
  | invalidDigits (fault : DigitFault)
  | unavailable (feature : FormatFeature) (locale : String)
deriving DecidableEq

def FormatFeature.name : FormatFeature → String
  | .longUnitNames => "long unit names"
  | .compactForm => "compact notation"

def DigitFault.description : DigitFault → String
  | .integer minimum => s!"minimumIntegerDigits {minimum} is outside 1..=21"
  | .significant minimum maximum => s!"significant digits {minimum}..={maximum}"
  | .fraction minimum maximum => s!"fraction digits {minimum}..={maximum}"

def FormatError.message : FormatError → String
  | .invalidCurrency code =>
      s!"invalid currency code {Text.quoted code}: expected three ASCII letters"
  | .unknownUnit unit => s!"unknown unit {Text.quoted unit}"
  | .missingCurrency => "currency style requires a currency code"
  | .missingUnit => "unit style requires a unit"
  | .invalidDigits fault => s!"invalid digit bounds: {fault.description}"
  | .unavailable feature locale =>
      s!"{feature.name} is not available for locale {Text.quoted locale}"

end LocalizedText
