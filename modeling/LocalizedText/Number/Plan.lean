import LocalizedText.Number.Currency
import LocalizedText.Number.Exponent
import LocalizedText.Number.FormatError
import LocalizedText.Number.LocaleData
import LocalizedText.Number.Options
import LocalizedText.Number.Text
import LocalizedText.Number.Unit

/-!
# Number plans

A plan is what remains of options once a locale's data and all defaults are settled. Making one
checks the options; applying one only rounds and puts text together. The sign is decided apart from
the digits, which depend on the magnitude alone.
-/

namespace LocalizedText

/-- How a number is rounded. -/
inductive NumberRounding where
  | fraction (minimum maximum : Nat)
  | significant (minimum maximum : Nat)
  /-- Two significant digits below one hundred, and whole numbers from there on. -/
  | compactAutomatic
deriving DecidableEq

/-- What is written around a number. -/
inductive NumberAffix where
  | bare
  | percent
  | currency (symbol : String)
  | unit (names : UnitNames) (display : UnitDisplay)
deriving DecidableEq

/-- Options resolved for a locale. -/
structure NumberPlan where
  data : LocaleData
  rounding : NumberRounding
  minimumInteger : Nat
  grouping : Bool
  form : NumberForm
  /-- The words of the compact form. -/
  words : Option CompactWords
  sign : SignDisplay
  affix : NumberAffix
deriving DecidableEq

namespace NumberPlan

/-- The greatest number of fraction digits. -/
def maxFraction : Nat := 20

/-- The greatest number of significant digits, and of integer digits to fill up to. -/
def maxSignificant : Nat := 21

/-- What the style writes around a number, and its usual bounds on fraction digits. -/
def resolveStyle (locale : String) (data : LocaleData) (options : NumberOptions) :
    Except FormatError (NumberAffix × Nat × Nat) :=
  match options.style with
  | .decimal => .ok (.bare, 0, 3)
  | .percent => .ok (.percent, 0, 0)
  | .currency =>
      match options.currency with
      | none => .error .missingCurrency
      | some code =>
          if Currency.isCode code then
            let code := Currency.capitalized code
            let digits := Currency.fractionDigits code
            .ok (.currency (Currency.symbol code), digits, digits)
          else .error (.invalidCurrency code)
  | .unit =>
      match options.unit with
      | none => .error .missingUnit
      | some unit =>
          match UnitNames.find? unit with
          | none => .error (.unknownUnit unit)
          | some names =>
              if options.unitDisplay = .long ∧ data.language ≠ "en" then
                .error (.unavailable .longUnitNames locale)
              else .ok (.unit names options.unitDisplay, 0, 3)

/-- The words of the compact form, which the other forms do not need. -/
def resolveWords (locale : String) (data : LocaleData) (options : NumberOptions) :
    Except FormatError (Option CompactWords) :=
  match options.form with
  | .compact =>
      let words :=
        match options.compactDisplay with
        | .short => data.shortWords
        | .long => data.longWords
      match words with
      | some words => .ok (some words)
      | none => .error (.unavailable .compactForm locale)
  | _ => .ok none

/-- Bounds on significant digits, when either is given. -/
def resolveSignificant (minimum maximum : Option UInt8) : Except FormatError NumberRounding :=
  let minimum := (minimum.map UInt8.toNat).getD 1
  let maximum := (maximum.map UInt8.toNat).getD maxSignificant
  if minimum = 0 ∨ maxSignificant < maximum ∨ maximum < minimum then
    .error (.invalidDigits (.significant minimum maximum))
  else .ok (.significant minimum maximum)

/--
Bounds on fraction digits. A single given bound moves the usual other one only as far as the two
would otherwise cross.
-/
def resolveFraction (minimum maximum : Option UInt8) (usualMinimum usualMaximum : Nat) :
    Except FormatError NumberRounding :=
  match minimum.map UInt8.toNat, maximum.map UInt8.toNat with
  | none, none => .ok (.fraction usualMinimum usualMaximum)
  | some minimum, none => check minimum (max usualMaximum minimum)
  | none, some maximum => check (min usualMinimum maximum) maximum
  | some minimum, some maximum => check minimum maximum
where
  check (minimum maximum : Nat) : Except FormatError NumberRounding :=
    if maxFraction < maximum ∨ maximum < minimum then
      .error (.invalidDigits (.fraction minimum maximum))
    else .ok (.fraction minimum maximum)

/-- The rounding that the options ask for; significant digits go before fraction digits. -/
def resolveRounding (options : NumberOptions) (usualMinimum usualMaximum : Nat) :
    Except FormatError NumberRounding :=
  if options.minimumSignificant.isSome || options.maximumSignificant.isSome then
    resolveSignificant options.minimumSignificant options.maximumSignificant
  else
    resolveFraction options.minimumFraction options.maximumFraction usualMinimum usualMaximum

/-- The number of integer digits to fill up to. -/
def resolveMinimumInteger (minimum : Option UInt8) : Except FormatError Nat :=
  match minimum.map UInt8.toNat with
  | none => .ok 1
  | some minimum =>
      if 1 ≤ minimum ∧ minimum ≤ maxSignificant then .ok minimum
      else .error (.invalidDigits (.integer minimum))

/-- The plan for a locale and options. -/
def resolve (locale : String) (options : NumberOptions) : Except FormatError NumberPlan := do
  let data := LocaleData.ofLocale locale
  let (affix, usualMinimum, usualMaximum) ← resolveStyle locale data options
  let words ← resolveWords locale data options
  let rounding ← resolveRounding options usualMinimum usualMaximum
  let minimumInteger ← resolveMinimumInteger options.minimumInteger
  let rounding :=
    if options.hasNoDigitBounds then
      match options.form with
      | .compact => .compactAutomatic
      | .scientific => .fraction 0 3
      | .standard => rounding
    else rounding
  return {
    data, rounding, minimumInteger, words, affix
    grouping := options.grouping
    form := options.form
    sign := options.signDisplay }

/--
A non-negative double as a numeral. There is none for zero when significant digits are asked for.
-/
def round? (plan : NumberPlan) (value : Double) : Option Numeral :=
  let numeral : Option Numeral :=
    match plan.rounding with
    | .fraction minimum maximum => some (Numeral.fixed value minimum maximum)
    | .significant minimum maximum => Numeral.significant? value minimum maximum
    | .compactAutomatic =>
        if value = Double.notANumber ∨ value.atLeast 100 = true then some (Numeral.fixed value 0 0)
        else Numeral.significant? value 1 2
  numeral.map (·.padInteger plan.minimumInteger)

/-- The numeral of a number, and what follows its digits. -/
structure Digits where
  numeral : Numeral
  /-- The word for the power of a thousand that the number was divided by. -/
  word : String := ""
  /-- The power of ten that the number was divided by. -/
  exponent : Option Int := none

/-- The number of powers of a thousand that a number reaches, at most four. -/
def compactTier (value : Double) : Nat :=
  ((List.range 4).takeWhile fun power => value.atLeast (1000 ^ (power + 1))).length

/-- The word of a tier; the lowest tier, plain numbers, has the empty word. -/
def wordOfTier? (words : CompactWords) : Nat → Option String
  | 0 => some ""
  | tier + 1 => (words[tier]?).join

/-- The compact form, tried from the tier that is `remaining` below the highest. -/
def compactFrom? (plan : NumberPlan) (words : CompactWords) (value : Double) (remaining : Nat) :
    Option Digits :=
  let tier := 4 - remaining
  match wordOfTier? words tier with
  -- A number whose tier has no word is written in full.
  | none => (plan.round? value).map fun numeral => { numeral }
  | some word =>
      match plan.round? (value.dividedBy (Double.ofNat (1000 ^ tier))) with
      | none => none
      | some numeral =>
          match remaining with
          | 0 => some { numeral, word }
          | next + 1 =>
              -- A number that rounds up to a thousand is tried again one tier higher.
              if numeral.atLeast 1000 then compactFrom? plan words value next
              else some { numeral, word }

/-- The compact form of a non-negative double. -/
def compact? (plan : NumberPlan) (value : Double) : Option Digits :=
  match plan.words with
  | none => (plan.round? value).map fun numeral => { numeral }
  | some words => plan.compactFrom? words value (4 - compactTier value)

/--
The scientific form of a non-negative double: a mantissa below ten, also after rounding, and its
exponent.
-/
def scientific? (plan : NumberPlan) (value : Double) : Option Digits :=
  if value.isZero then
    (plan.round? Double.zero).map fun numeral => { numeral, exponent := some 0 }
  else do
    let exponent := value.decimalExponent
    let numeral ← plan.round? (value.dividedBy (Double.powerOfTen exponent))
    if numeral.atLeast 10 then
      let numeral ← plan.round? (value.dividedBy (Double.powerOfTen (exponent + 1)))
      return { numeral, exponent := some (exponent + 1) }
    else
      return { numeral, exponent := some exponent }

/-- The digits of a non-negative double. -/
def digits? (plan : NumberPlan) (value : Double) : Option Digits :=
  match plan.form with
  | .standard => (plan.round? value).map fun numeral => { numeral }
  | .compact => plan.compact? value
  | .scientific => plan.scientific? value

/--
How integer digits are grouped, if they are: never before an exponent, and in the compact form only
from five digits on.
-/
def groupingFor (plan : NumberPlan) (digits : Digits) : Option (Char × Nat) :=
  if plan.grouping && digits.exponent.isNone then
    let minimum :=
      match plan.form with
      | .compact => max plan.data.minimumGrouping 2
      | _ => plan.data.minimumGrouping
    some (plan.data.groupSeparator, minimum)
  else none

/-- The text of the digits, without sign and affix. -/
def writeDigits (plan : NumberPlan) (digits : Digits) : String :=
  let number :=
    String.ofList (digits.numeral.render (plan.groupingFor digits) plan.data.decimalSeparator)
  let exponent :=
    match digits.exponent with
    | none => ""
    | some exponent => s!"E{exponent}"
  number ++ digits.word ++ exponent

/-- The sign in front of a number. -/
def signText (display : SignDisplay) (negative : Bool) (numeral : Numeral) : String :=
  match display with
  | .never => ""
  | .auto => if negative then "-" else ""
  | .always => if negative then "-" else "+"
  | .exceptZero => if numeral.isZero then "" else if negative then "-" else "+"

/-- The name of a unit after a number; the singular one only after the digit one alone. -/
def unitText (names : UnitNames) (display : UnitDisplay) (numeral : Numeral) : String :=
  match display with
  | .short => if names.attached then names.short else " " ++ names.short
  | .narrow => names.narrow
  | .long =>
      if numeral = ⟨['1'], []⟩ then " " ++ names.singular else " " ++ names.plural

/-- What stands between the sign and the number, and after the number. -/
def surroundings (plan : NumberPlan) (numeral : Numeral) : String × String :=
  match plan.affix with
  | .bare => ("", "")
  | .percent => ("", plan.data.percentSpace ++ "%")
  | .unit names display => ("", unitText names display numeral)
  | .currency symbol =>
      match plan.data.currency with
      | .before =>
          if symbol.toList.all Char.isAlpha then (symbol ++ LocaleData.noBreakSpace, "")
          else (symbol, "")
      | .beforeSpaced => (symbol ++ LocaleData.noBreakSpace, "")
      | .afterSpaced => ("", LocaleData.noBreakSpace ++ symbol)

/-- The non-negative double whose digits are shown: a percentage is a hundred times the value. -/
def scaled (plan : NumberPlan) (value : Double) : Double :=
  match plan.affix with
  | .percent => value.abs.times (Double.ofNat 100)
  | _ => value.abs

/--
The text of a value. There is none when significant digits are asked for and the value is zero, or
is infinite as a percentage.
-/
def format? (plan : NumberPlan) (value : Double) : Option String :=
  if value.isFinite then
    (plan.digits? (plan.scaled value)).map fun digits =>
      let (before, after) := plan.surroundings digits.numeral
      signText plan.sign value.isNegative digits.numeral ++ before ++ plan.writeDigits digits ++
        after
  else some value.display

end NumberPlan

end LocalizedText
