/-!
# Number options

What a caller may ask of a formatted number. Options are compared and hashed as a whole, since a
resolved plan is kept for every combination of a locale and options.
-/

namespace LocalizedText

/-- The kind of quantity. -/
inductive NumberStyle where
  | decimal
  | currency
  | percent
  | unit
deriving DecidableEq, Hashable

/-- Whether a number is written in full, abbreviated (`1.5M`) or with an exponent (`1.5E6`). -/
inductive NumberForm where
  | standard
  | compact
  | scientific
deriving DecidableEq, Hashable

/-- The length of the words that abbreviate thousands and more. -/
inductive CompactDisplay where
  | short
  | long
deriving DecidableEq, Hashable

/-- Which numbers show a sign. -/
inductive SignDisplay where
  /-- Negative numbers, negative zero included. -/
  | auto
  | never
  /-- All numbers, zero included. -/
  | always
  /-- All numbers but those that round to zero. -/
  | exceptZero
deriving DecidableEq, Hashable

/-- The length of a unit's name. -/
inductive UnitDisplay where
  | short
  | long
  | narrow
deriving DecidableEq, Hashable

/-- The options of a formatted number. -/
structure NumberOptions where
  style : NumberStyle := .decimal
  /-- The three letters of a currency, which the currency style needs. -/
  currency : Option String := none
  /-- The name of a unit, which the unit style needs. -/
  unit : Option String := none
  unitDisplay : UnitDisplay := .short
  form : NumberForm := .standard
  compactDisplay : CompactDisplay := .short
  signDisplay : SignDisplay := .auto
  grouping : Bool := true
  minimumInteger : Option UInt8 := none
  minimumFraction : Option UInt8 := none
  maximumFraction : Option UInt8 := none
  minimumSignificant : Option UInt8 := none
  maximumSignificant : Option UInt8 := none
deriving DecidableEq, Hashable

instance : Inhabited NumberOptions := ⟨{}⟩

namespace NumberOptions

def ofCurrency (code : String) : NumberOptions :=
  { style := .currency, currency := some code }

/-- A share of one hundred: a quarter is `25%`. -/
def percent : NumberOptions :=
  { style := .percent }

/-- An abbreviated number with short words. -/
def compact : NumberOptions :=
  { form := .compact }

def ofUnit (unit : String) : NumberOptions :=
  { style := .unit, unit := some unit }

/-- A number without fraction digits. -/
def integer : NumberOptions :=
  { maximumFraction := some 0 }

/-- No bound on the digits of the fraction or on the significant digits is given. -/
def hasNoDigitBounds (options : NumberOptions) : Bool :=
  options.minimumFraction.isNone && options.maximumFraction.isNone &&
    options.minimumSignificant.isNone && options.maximumSignificant.isNone

end NumberOptions

end LocalizedText
