import LocalizedText.Number.Rounding

/-!
# Doubles, exactly

A finite double is a whole number of units of `2 ^ -1074`, with a sign. Its magnitude is kept as
that number, so that every question about a double (its digits, its integer part, the double
nearest to a product) is a question about natural numbers. A number of units is a magnitude when it
is below the overflow limit and 53 binary digits write it up to trailing zeros.
-/

namespace LocalizedText

/-- The number of units in the number one. -/
def unitsPerOne : Nat := 2 ^ 1074

/-- The least number of units beyond the finite doubles. -/
def overflowUnits : Nat := 2 ^ 2098

/-- The number of units is that of a finite double. -/
def IsRepresentable (units : Nat) : Prop :=
  units < overflowUnits ∧ units % 2 ^ (units.log2 - 52) = 0

instance (units : Nat) : Decidable (IsRepresentable units) :=
  inferInstanceAs (Decidable (_ ∧ _))

/-- A finite double without its sign. -/
structure Magnitude where
  /-- The value, in units of `2 ^ -1074`. -/
  units : Nat
  representable : IsRepresentable units
deriving DecidableEq

namespace Magnitude

/-- The magnitude of so many units, if there is one. -/
def ofUnits? (units : Nat) : Option Magnitude :=
  if representable : IsRepresentable units then some ⟨units, representable⟩ else none

theorem units_ofUnits? {units : Nat} {magnitude : Magnitude}
    (found : ofUnits? units = some magnitude) : magnitude.units = units := by
  unfold ofUnits? at found
  split at found
  · cases found
    rfl
  · cases found

theorem ofUnits?_units (magnitude : Magnitude) :
    ofUnits? magnitude.units = some magnitude := by
  simp [ofUnits?, magnitude.representable]

/-- The magnitude nearest to a quotient of units, unless the quotient rounds beyond them all. -/
def nearestUnits? (numerator denominator : Nat) : Option Magnitude :=
  ofUnits? (roundToBits 53 numerator denominator)

/-- The magnitude nearest to a quotient, unless the quotient rounds beyond them all. -/
def nearest? (numerator denominator : Nat) : Option Magnitude :=
  nearestUnits? (numerator * unitsPerOne) denominator

theorem overflowUnits_pos : 0 < overflowUnits := by
  rw [overflowUnits]
  apply Nat.two_pow_pos

def zero : Magnitude := ⟨0, overflowUnits_pos, Nat.zero_mod _⟩

instance : Inhabited Magnitude := ⟨zero⟩

/-- The magnitude is a whole number. -/
def isIntegral (magnitude : Magnitude) : Bool :=
  magnitude.units % unitsPerOne == 0

/-- The whole part of a magnitude. -/
def integerPart (magnitude : Magnitude) : Nat :=
  magnitude.units / unitsPerOne

/-- The distance from a magnitude to the next larger one, in units. -/
def spacing (magnitude : Magnitude) : Nat :=
  2 ^ (magnitude.units.log2 - 52)

end Magnitude

/-- A double: a signed magnitude, an infinity, or no number at all. -/
inductive Double where
  | finite (negative : Bool) (magnitude : Magnitude)
  | infinite (negative : Bool)
  | notANumber
deriving DecidableEq

namespace Double

/-- The double with the magnitude, or infinity when there is none. -/
def ofMagnitude? (negative : Bool) : Option Magnitude → Double
  | some magnitude => finite negative magnitude
  | none => infinite negative

/-- The double nearest to a signed quotient. -/
def ofQuotient (negative : Bool) (numerator denominator : Nat) : Double :=
  ofMagnitude? negative (Magnitude.nearest? numerator denominator)

/-- The double nearest to a natural number. -/
def ofNat (value : Nat) : Double :=
  ofQuotient false value 1

/-- The double nearest to an integer. -/
def ofInt (value : Int) : Double :=
  ofQuotient (decide (value < 0)) value.natAbs 1

/-- Zero without a sign. -/
def zero : Double := finite false Magnitude.zero

instance : Inhabited Double := ⟨zero⟩

/-- The double is a number other than the infinities. -/
def isFinite : Double → Bool
  | finite _ _ => true
  | _ => false

/-- The sign bit is set; zero and infinity have one too. -/
def isNegative : Double → Bool
  | finite negative _ => negative
  | infinite negative => negative
  | notANumber => false

/-- The double is less than zero, which negative zero is not. -/
def isBelowZero : Double → Bool
  | finite negative magnitude => negative && magnitude.units != 0
  | infinite negative => negative
  | notANumber => false

def isZero : Double → Bool
  | finite _ magnitude => magnitude.units == 0
  | _ => false

def abs : Double → Double
  | finite _ magnitude => finite false magnitude
  | infinite _ => infinite false
  | notANumber => notANumber

/--
Numeric equality: the two zeros are equal, and what is no number differs from everything, itself
included.
-/
def equals : Double → Double → Bool
  | finite leftNegative left, finite rightNegative right =>
      left.units == right.units && (leftNegative == rightNegative || left.units == 0)
  | infinite leftNegative, infinite rightNegative => leftNegative == rightNegative
  | _, _ => false

/-- The integer of units that a signed magnitude stands for. -/
def signedUnits (negative : Bool) (magnitude : Magnitude) : Int :=
  if negative then -(magnitude.units : Int) else magnitude.units

/-- The double nearest to the sum; a sum of zero is negative only when both parts are. -/
def plus : Double → Double → Double
  | finite leftNegative left, finite rightNegative right =>
      let units := signedUnits leftNegative left + signedUnits rightNegative right
      if units = 0 then finite (leftNegative && rightNegative) Magnitude.zero
      else ofMagnitude? (decide (units < 0)) (Magnitude.nearestUnits? units.natAbs 1)
  | finite _ _, infinite negative => infinite negative
  | infinite negative, finite _ _ => infinite negative
  | infinite leftNegative, infinite rightNegative =>
      if leftNegative = rightNegative then infinite leftNegative else notANumber
  | _, _ => notANumber

/-- The double nearest to the product. -/
def times : Double → Double → Double
  | finite leftNegative left, finite rightNegative right =>
      ofMagnitude? (leftNegative != rightNegative)
        (Magnitude.nearestUnits? (left.units * right.units) unitsPerOne)
  | finite leftNegative left, infinite rightNegative =>
      if left.units = 0 then notANumber else infinite (leftNegative != rightNegative)
  | infinite leftNegative, finite rightNegative right =>
      if right.units = 0 then notANumber else infinite (leftNegative != rightNegative)
  | infinite leftNegative, infinite rightNegative => infinite (leftNegative != rightNegative)
  | _, _ => notANumber

/-- The double nearest to the quotient. -/
def dividedBy : Double → Double → Double
  | finite leftNegative left, finite rightNegative right =>
      if right.units = 0 then
        if left.units = 0 then notANumber else infinite (leftNegative != rightNegative)
      else
        ofMagnitude? (leftNegative != rightNegative)
          (Magnitude.nearestUnits? (left.units * unitsPerOne) right.units)
  | finite leftNegative _, infinite rightNegative =>
      finite (leftNegative != rightNegative) Magnitude.zero
  | infinite leftNegative, finite rightNegative _ => infinite (leftNegative != rightNegative)
  | _, _ => notANumber

/-- The double is at least the natural number. -/
def atLeast (value : Double) (bound : Nat) : Bool :=
  match value with
  | finite negative magnitude =>
      bound * unitsPerOne ≤ magnitude.units && (!negative || magnitude.units == 0)
  | infinite negative => !negative
  | notANumber => false

/-- The double is at least half the natural number. -/
def atLeastHalf (value : Double) (bound : Nat) : Bool :=
  match value with
  | finite negative magnitude =>
      bound * unitsPerOne ≤ 2 * magnitude.units && (!negative || magnitude.units == 0)
  | infinite negative => !negative
  | notANumber => false

/-- The double is a whole number. -/
def isIntegral : Double → Bool
  | finite _ magnitude => magnitude.isIntegral
  | _ => false

/-- The integer that a whole double is. -/
def toInt? : Double → Option Int
  | finite negative magnitude =>
      if magnitude.isIntegral then
        some (if negative then -(magnitude.integerPart : Int) else magnitude.integerPart)
      else
        none
  | _ => none

/-- The magnitude of the greatest integer that is not above a finite double. -/
def floorMagnitude (negative : Bool) (magnitude : Magnitude) : Nat :=
  if negative && !magnitude.isIntegral then magnitude.integerPart + 1 else magnitude.integerPart

/-- Repeated squaring, a rounding after every product: `accumulated * base ^ exponent`. -/
def powerFrom (accumulated base : Double) (exponent : Nat) : Double :=
  let accumulated := if exponent % 2 = 1 then accumulated.times base else accumulated
  if exponent / 2 = 0 then accumulated
  else powerFrom accumulated (base.times base) (exponent / 2)
termination_by exponent

/-- A power of ten: by repeated squaring, and one over it for a negative exponent. -/
def powerOfTen (exponent : Int) : Double :=
  let power := powerFrom (ofNat 1) (ofNat 10) exponent.natAbs
  if exponent < 0 then (ofNat 1).dividedBy power else power

end Double

end LocalizedText
