import LocalizedText.Number.Double

/-!
# Single precision

A few numbers are rounded to the 24 binary digits of single precision before they are doubles.
Finite singles are whole numbers of units of `2 ^ -149`.
-/

namespace LocalizedText

namespace Double

/-- The number of units of single precision in the number one. -/
def singleUnitsPerOne : Nat := 2 ^ 149

/-- The double that equals so many units of single precision, or infinity beyond its range. -/
def ofSingleUnits (negative : Bool) (units : Nat) : Double :=
  if units < 2 ^ 277 then
    ofMagnitude? negative (Magnitude.ofUnits? (units * 2 ^ 925))
  else
    infinite negative

/-- The single nearest to a signed quotient, as a double. -/
def ofSingleQuotient (negative : Bool) (numerator denominator : Nat) : Double :=
  ofSingleUnits negative (roundToBits 24 (numerator * singleUnitsPerOne) denominator)

/-- A percentage in single precision: the quotient is rounded, and then its hundredfold. -/
def singlePercentage (part whole : Nat) : Double :=
  let partUnits := roundToBits 24 (part * singleUnitsPerOne) 1
  let wholeUnits := roundToBits 24 (whole * singleUnitsPerOne) 1
  let quotientUnits := roundToBits 24 (partUnits * singleUnitsPerOne) wholeUnits
  ofSingleUnits false (roundToBits 24 (quotientUnits * 100) 1)

end Double

end LocalizedText
