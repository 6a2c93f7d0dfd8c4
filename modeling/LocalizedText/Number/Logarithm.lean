import LocalizedText.Number.Double

/-!
# Logarithms

The decimal logarithm of a double, as double arithmetic finds it. A double is `m * 2 ^ k` with `m`
between one half and two, and its decimal logarithm is that of two, `k` times, and the natural
logarithm of `m` over the natural logarithm of ten. The decimal logarithm of two is kept in two
parts, a head with so few binary digits that its multiples are exact and the small remainder. Every
operation is rounded, so that the outcome may be a whole number where the logarithm is only close to
one.
-/

namespace LocalizedText

/-- The parts of one in which the series of a logarithm is summed up. -/
def logarithmScale : Nat := 2 ^ 63

/-- The number of terms after which the series adds nothing more for arguments up to one third. -/
def logarithmTerms : Nat := 24

/--
The rest of the series `t + t ^ 3 / 3 + t ^ 5 / 5 + ⋯`, with `power` the power of `t` that is
divided by `odd` next, and `square` the square of `t`. All are in parts of one, and every quotient
is rounded to the nearest part.
-/
def oddPowerSeries (square : Nat) : Nat → Nat → Nat → Nat
  | 0, _, _ => 0
  | terms + 1, odd, power =>
      roundQuotient power odd +
        oddPowerSeries square terms (odd + 2) (roundQuotient (power * square) logarithmScale)

namespace Double

/--
The natural logarithm of a quotient between one half and two: twice the series of odd powers at the
difference over the sum.
-/
def naturalLog (numerator denominator : Nat) : Double :=
  let difference := max numerator denominator - min numerator denominator
  let argument := roundQuotient (difference * logarithmScale) (numerator + denominator)
  let square := roundQuotient (argument * argument) logarithmScale
  ofQuotient (decide (numerator < denominator))
    (2 * oddPowerSeries square logarithmTerms 1 argument) logarithmScale

/-- The decimal logarithm of two, cut after its first forty binary digits. -/
def logOfTwoHead : Double := ofQuotient false 661971961083 (2 ^ 41)

/-- What the head of the decimal logarithm of two leaves out. -/
def logOfTwoTail : Double := ofQuotient false 369423907715893078616 (10 ^ 33)

/-- One over the natural logarithm of ten. -/
def decimalsPerNatural : Double := ofQuotient false 434294481903251827651 (10 ^ 21)

end Double

namespace Magnitude

/-- The decimal logarithm of a positive magnitude. -/
def decimalLog (magnitude : Magnitude) : Double :=
  let binary := magnitude.units.log2
  let exponent : Int := binary - 1074
  -- The factor next to the power of two is at least one for a magnitude of one or more, and below
  -- one for a smaller magnitude.
  let (denominator, multiple) :=
    if exponent < 0 then (2 ^ (binary + 1), Double.ofInt (exponent + 1))
    else (2 ^ binary, Double.ofInt exponent)
  let ofFactor := Double.decimalsPerNatural.times (Double.naturalLog magnitude.units denominator)
  ((multiple.times Double.logOfTwoTail).plus ofFactor).plus (multiple.times Double.logOfTwoHead)

end Magnitude

end LocalizedText
