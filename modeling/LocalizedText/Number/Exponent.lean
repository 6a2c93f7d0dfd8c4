import LocalizedText.Number.Logarithm

/-!
# Decimal exponents

Scientific output takes its exponent from the decimal logarithm in double arithmetic. That logarithm
is rounded, so a number very close below a power of ten may already count as the power.
-/

namespace LocalizedText

namespace Double

/-- The greatest integer not above a double; none for the infinities and what is no number. -/
def floor? : Double → Option Int
  | finite negative magnitude =>
      let size : Int := floorMagnitude negative magnitude
      some (if negative then -size else size)
  | _ => none

/-- The exponent that stands for the logarithm of infinity. -/
def infiniteExponent : Int := 2147483647

/-- The decimal exponent of a positive double. -/
def decimalExponent : Double → Int
  | finite _ magnitude => magnitude.decimalLog.floor?.getD 0
  | infinite _ => infiniteExponent
  | notANumber => 0

end Double

end LocalizedText
