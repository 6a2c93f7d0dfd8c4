import LocalizedText.Number.Reading

/-!
# Shortest digits

A double is written with the fewest decimal digits that read back as it. The numbers that read back
as a magnitude form an interval around it, half way to its two neighbours; the ends belong to it
when its mantissa is even. Decimal grids from coarse to fine are tried in turn: if any point of a
grid lies in the interval, then so does one of the two points next to the magnitude, and the nearer
of them is taken.
-/

namespace LocalizedText

/-- A positive decimal number `digits * 10 ^ exponent`. -/
structure Decimal where
  digits : Nat
  exponent : Int
deriving DecidableEq

/-- Which of two equally near decimals is taken. -/
inductive DecimalTie where
  | upward
  | toEven
deriving DecidableEq

namespace Magnitude

/-- Even the least positive magnitude is above one when it is multiplied by ten so many times. -/
def decimalScale : Nat := 400

/-- The whole part of a magnitude that is multiplied so. -/
def scaled (magnitude : Magnitude) : Nat :=
  magnitude.units * 10 ^ decimalScale / unitsPerOne

/-- The decimal exponent: the least `e` for which a positive magnitude is below `10 ^ e`. -/
def decimalPoint (magnitude : Magnitude) : Int :=
  (DecimalLiteral.decimalLength magnitude.scaled : Int) - decimalScale

/-- The magnitude in steps of `10 ^ exponent`, as a quotient of natural numbers. -/
def stepsOf (units : Nat) (exponent : Int) : Nat × Nat :=
  (units * 10 ^ (-exponent).toNat, unitsPerOne * 10 ^ exponent.toNat)

/-- Four times the distance from a magnitude down to the end of its interval. -/
def lowerReach (magnitude : Magnitude) : Nat :=
  -- Below a power of two the magnitudes lie twice as close as above it.
  if magnitude.units = 2 ^ magnitude.units.log2 ∧ 1 < magnitude.spacing then magnitude.spacing
  else 2 * magnitude.spacing

/-- Whether the ends of the interval read back as the magnitude. -/
def includesEnds (magnitude : Magnitude) : Bool :=
  -- A point halfway between two magnitudes is read as the one with the even significand.
  magnitude.units / magnitude.spacing % 2 == 0

/-- Whether a point of the grid with steps of `10 ^ exponent` reads back as the magnitude. -/
def readsBack (magnitude : Magnitude) (digits : Nat) (exponent : Int) : Bool :=
  let low := stepsOf (4 * magnitude.units - magnitude.lowerReach) exponent
  let high := stepsOf (4 * magnitude.units + 2 * magnitude.spacing) exponent
  let point := 4 * digits * low.2
  if magnitude.includesEnds then low.1 ≤ point && point ≤ high.1
  else low.1 < point && point < high.1

/-- The point of a grid nearest to a magnitude among its two neighbours that read back as it. -/
def nearestOnGrid? (tie : DecimalTie) (magnitude : Magnitude) (exponent : Int) : Option Decimal :=
  let (numerator, denominator) := stepsOf magnitude.units exponent
  let below := numerator / denominator
  let twice := 2 * (numerator % denominator)
  match magnitude.readsBack below exponent, magnitude.readsBack (below + 1) exponent with
  | true, true =>
      let upward :=
        denominator < twice ||
          (denominator == twice && (tie == .upward || below % 2 == 1))
      some ⟨if upward then below + 1 else below, exponent⟩
  | true, false => some ⟨below, exponent⟩
  | false, true => some ⟨below + 1, exponent⟩
  | false, false => none

/-- Seventeen digits always suffice to read a double back. -/
def maxShortestDigits : Nat := 17

/-- The shortest decimal that reads back as a positive magnitude. -/
def shortest (tie : DecimalTie) (magnitude : Magnitude) : Decimal :=
  let point := magnitude.decimalPoint
  ((List.range maxShortestDigits).findSome? fun (index : Nat) =>
      magnitude.nearestOnGrid? tie (point - 1 - index)).getD ⟨0, 0⟩

end Magnitude

end LocalizedText
