import LocalizedText.Json.Basic

/-!
# JSON numerals

A numeral without a point and an exponent that fits into 64 bits denotes an integer. Every other
numeral denotes the double nearest to it, provided that it is in range. The range is that of a
coarser reading in double arithmetic: the leading digits that fit into 64 bits are multiplied by a
power of ten, and that product has to be finite. So a numeral just below the overflow limit may be
out of range although a finite double is nearest to it.
-/

namespace LocalizedText

/-- A number as it is written in JSON. -/
structure JsonNumeral where
  negative : Bool
  integer : List Char
  /-- The digits after the point, if there is a point. -/
  fraction : Option (List Char)
  exponent : Option Int

/--
A significand followed by digits as far as 64 bits hold it, and the number of digits from the first
one on that no longer fits.
-/
def gatherDigits (significand : Nat) : List Char → Nat × Nat
  | [] => (significand, 0)
  | digit :: rest =>
      let next := 10 * significand + (digit.toNat - '0'.toNat)
      if next < 2 ^ 64 then gatherDigits next rest else (significand, rest.length + 1)

namespace JsonNumeral

/-- The decimal numeral that is written. -/
def literal (numeral : JsonNumeral) : DecimalLiteral :=
  .ofParts numeral.negative numeral.integer (numeral.fraction.getD []) (numeral.exponent.getD 0)

/-- The numeral has neither a point nor an exponent. -/
def isIntegral (numeral : JsonNumeral) : Bool :=
  numeral.fraction.isNone && numeral.exponent.isNone

/-- The natural number that is written without a sign, a point and an exponent. -/
def natural? (numeral : JsonNumeral) : Option Nat :=
  if numeral.isIntegral && !numeral.negative then some (DecimalLiteral.digitsValue numeral.integer)
  else none

/-- The integer that is written without a point and an exponent. -/
def integer? (numeral : JsonNumeral) : Option Int :=
  let natural := DecimalLiteral.digitsValue numeral.integer
  if numeral.isIntegral then some (if numeral.negative then -(natural : Int) else natural) else none

/-- The leading digits as 64 bits hold them, and the exponent of ten that goes with them. -/
def leading (numeral : JsonNumeral) : Nat × Int :=
  let fraction := numeral.fraction.getD []
  let (integral, integerLeft) := gatherDigits 0 numeral.integer
  let (significand, fractionLeft) := gatherDigits integral fraction
  (significand,
    numeral.exponent.getD 0 + integerLeft - ((fraction.length - fractionLeft : Nat) : Int))

/-- The greatest power of ten that is a double. -/
def greatestPowerOfTen : Int := 308

/-- The coarser reading of the numeral is finite. -/
def isInRange (numeral : JsonNumeral) : Bool :=
  let (significand, exponent) := numeral.leading
  significand == 0 || exponent < 0 ||
    (exponent ≤ greatestPowerOfTen &&
      ((Double.ofNat significand).times (Double.ofNat (10 ^ exponent.toNat))).isFinite)

/-- The number that the numeral denotes, unless it is out of range. -/
def number? (numeral : JsonNumeral) : Option JsonNumber :=
  let natural := DecimalLiteral.digitsValue numeral.integer
  if numeral.isIntegral && !numeral.negative && natural < 2 ^ 64 then some (.integer natural)
  else if numeral.isIntegral && numeral.negative && 0 < natural && natural ≤ 2 ^ 63 then
    some (.integer (-natural))
  else if numeral.isInRange then some (.fractional numeral.literal.toDouble)
  else none

end JsonNumeral

end LocalizedText
