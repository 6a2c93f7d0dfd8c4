/-!
# Currencies

A currency is named by three letters. Most common ones have a symbol; the others show their letters.
-/

namespace LocalizedText

namespace Currency

/-- The code is made of exactly three ASCII letters. -/
def isCode (code : String) : Bool :=
  code.toList.length == 3 && code.toList.all Char.isAlpha

def capitalized (code : String) : String :=
  String.ofList (code.toList.map Char.toUpper)

def symbols : List (String × String) :=
  [("USD", "$"), ("EUR", "€"), ("GBP", "£"), ("JPY", "¥"), ("CNY", "CN¥"), ("INR", "₹"),
    ("KRW", "₩"), ("RUB", "₽"), ("PLN", "zł"), ("BRL", "R$"), ("CAD", "CA$"), ("AUD", "A$"),
    ("MXN", "MX$")]

/-- The symbol of a currency, or its code if it has none. -/
def symbol (code : String) : String :=
  (symbols.lookup code).getD code

/-- The currencies whose amounts have no fraction. -/
def withoutFraction : List String := ["JPY", "KRW", "VND", "CLP", "ISK"]

/-- The currencies that are divided into a thousand parts. -/
def inThousandths : List String := ["BHD", "KWD", "OMR", "JOD", "TND"]

/-- The number of fraction digits of an amount. -/
def fractionDigits (code : String) : Nat :=
  if withoutFraction.contains code then 0
  else if inThousandths.contains code then 3
  else 2

end Currency

end LocalizedText
