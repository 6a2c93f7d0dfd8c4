import LocalizedText.Number.Currency
import LocalizedText.Number.Numeral
import LocalizedText.Number.Options
import LocalizedText.Number.Text

/-!
# Manual number formatting

The formatting that needs no locale data: in the shape of English, with four currency symbols, a
percent sign after a scaled number, and thousands, millions and billions abbreviated with one
fraction digit. It takes every value and all options.
-/

namespace LocalizedText

namespace ManualNumber

/-- The symbol of a currency: three currencies have their own, and all else is shown in dollars. -/
def symbol (code : Option String) : String :=
  match code.map Currency.capitalized with
  | some "EUR" => "€"
  | some "GBP" => "£"
  | some "JPY" => "¥"
  | _ => "$"

/-- A minus sign for a number below zero. -/
def sign (value : Double) : String :=
  if value.isBelowZero then "-" else ""

/-- A non-negative double with its digits grouped by commas. -/
def grouped (value : Double) (minimum maximum : Nat) : String :=
  String.ofList ((Numeral.fixed value minimum maximum).render (some (',', 1)) '.')

/-- A non-negative double with exactly so many fraction digits, not grouped. -/
def fixedDigits (value : Double) (digits : Nat) : String :=
  String.ofList ((Numeral.fixed value digits digits).render none '.')

/-- The abbreviated powers of ten, the greatest first. -/
def tiers : List (Nat × String) :=
  [(10 ^ 9, "B"), (10 ^ 6, "M"), (10 ^ 3, "K")]

/--
The tier of a non-negative double: the greatest one that it reaches, or the one above, named first,
when one fraction digit would round it up to a thousand.
-/
def tier? (value : Double) (above : Option (Nat × String)) :
    List (Nat × String) → Option (Nat × String)
  | [] => none
  | tier :: lower =>
      if value.atLeast tier.1 then
        let tenths := (value.dividedBy (Double.ofNat tier.1)).times (Double.ofNat 10)
        match above with
        | some above => if tenths.atLeastHalf 19999 then some above else some tier
        | none => some tier
      else tier? value (some tier) lower

/-- The text of a value. -/
def format (value : Double) (options : NumberOptions) : String :=
  if value.isFinite then
    let magnitude := value.abs
    let maximum := options.maximumFraction.map UInt8.toNat
    sign value ++
      match options.style with
      | .currency =>
          let digits := maximum.getD 2
          symbol options.currency ++ grouped magnitude digits digits
      | .percent => fixedDigits (magnitude.times (Double.ofNat 100)) (maximum.getD 0) ++ "%"
      | _ =>
          if options.form = .compact then
            match tier? magnitude none tiers with
            | some (scale, word) => fixedDigits (magnitude.dividedBy (Double.ofNat scale)) 1 ++ word
            | none => grouped magnitude 0 3
          else
            let minimum := (options.minimumFraction.map UInt8.toNat).getD 0
            grouped magnitude minimum (max (maximum.getD 3) minimum)
  else value.display

/-- Two formatted values as a range. -/
def formatRange (first last : String) : String :=
  first ++ " – " ++ last

end ManualNumber

end LocalizedText
