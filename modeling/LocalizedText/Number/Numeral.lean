import LocalizedText.Number.Shortest

/-!
# Numerals

A numeral is the digits of a rounded number before and after the point. Rounding goes from the exact
value of a double, to a number of fraction digits or of significant digits; zeros at the end of the
fraction are then dropped or added to meet a lower bound. Rendering joins the parts with the
separators of a locale.
-/

namespace LocalizedText

/--
The digits before and after the point. The integer part of a number that is not finite is its name
in place of digits.
-/
structure Numeral where
  integer : List Char
  fraction : List Char
deriving DecidableEq

namespace Numeral

/-- The digits without the zeros at their end. -/
def trimZeros (digits : List Char) : List Char :=
  (digits.reverse.dropWhile (· == '0')).reverse

/-- The digits with the point after the first `point` of them, zeros filled in as needed. -/
def ofDigits (digits : List Char) (point : Int) : Numeral :=
  if point ≤ 0 then ⟨['0'], List.replicate (-point).toNat '0' ++ digits⟩
  else
    let whole := point.toNat
    ⟨digits.take whole ++ List.replicate (whole - digits.length) '0', digits.drop whole⟩

/-- The numeral of `value / 10 ^ places`, with all of its places. -/
def ofScaled (value places : Nat) : Numeral :=
  let digits := Nat.toDigits 10 value
  let padded := List.replicate (places + 1 - digits.length) '0' ++ digits
  ⟨padded.take (padded.length - places), padded.drop (padded.length - places)⟩

/-- The numeral without the zeros at the end of its fraction beyond the first `minimum` digits. -/
def trimFraction (numeral : Numeral) (minimum : Nat) : Numeral :=
  { numeral with
    fraction := numeral.fraction.take (max minimum (trimZeros numeral.fraction).length) }

/--
A non-negative double rounded to at most `maximum` fraction digits, of which at least `minimum` are
kept.
-/
def fixed (value : Double) (minimum maximum : Nat) : Numeral :=
  match value with
  | .finite _ magnitude =>
      (ofScaled (roundQuotient (magnitude.units * 10 ^ maximum) unitsPerOne) maximum).trimFraction
        minimum
  | .infinite _ => ⟨['i', 'n', 'f'], []⟩
  | .notANumber => ⟨['N', 'a', 'N'], []⟩

/-- The number of digits from the first one that is not zero. -/
def significantCount (numeral : Numeral) : Nat :=
  ((numeral.integer ++ numeral.fraction).dropWhile (· == '0')).length

/--
Zeros at the end of the fraction are dropped while more than `minimum` significant digits are left,
and added until there are `minimum`.
-/
def adjustSignificant (numeral : Numeral) (minimum : Nat) : Numeral :=
  let zeros := numeral.fraction.length - (trimZeros numeral.fraction).length
  let dropped := min zeros (numeral.significantCount - minimum)
  let kept := numeral.fraction.take (numeral.fraction.length - dropped)
  let added := minimum - numeral.significantCount
  { numeral with fraction := kept ++ List.replicate added '0' }

/-- A positive magnitude rounded to `count` significant digits. -/
def roundSignificant (magnitude : Magnitude) (count : Nat) : Numeral :=
  let point := magnitude.decimalPoint
  let (numerator, denominator) := Magnitude.stepsOf magnitude.units (point - count)
  let digits := Nat.toDigits 10 (roundQuotient numerator denominator)
  -- When the rounding carries into a new digit the last one, a zero, is left out.
  ofDigits (digits.take count) (point + ((digits.length : Int) - count))

/--
A non-negative double rounded to at most `maximum` significant digits, of which at least `minimum`
are kept. Zero and what is not finite have no significant digit, so there is no such numeral for
them unless none is asked for.
-/
def significant? (value : Double) (minimum maximum : Nat) : Option Numeral :=
  match value with
  | .finite _ magnitude =>
      if magnitude.units = 0 then
        if minimum = 0 then some ⟨['0'], []⟩ else none
      else
        some ((roundSignificant magnitude (max maximum 1)).adjustSignificant minimum)
  | _ => if minimum = 0 then some ⟨['0'], []⟩ else none

/-- The numeral with zeros in front until its integer part has `minimum` digits. -/
def padInteger (numeral : Numeral) (minimum : Nat) : Numeral :=
  { numeral with
    integer := List.replicate (minimum - numeral.integer.length) '0' ++ numeral.integer }

def isZero (numeral : Numeral) : Bool :=
  (numeral.integer ++ numeral.fraction).all (· == '0')

/-- The number that the digits denote is at least a natural number; infinity is above them all. -/
def atLeast (numeral : Numeral) (bound : Nat) : Bool :=
  if numeral.integer.all Char.isDigit then
    bound ≤ DecimalLiteral.digitsValue numeral.integer
  else
    numeral.integer == ['i', 'n', 'f']

/-- A separator after every digit that a positive multiple of three digits follows. -/
def insertSeparators (separator : Char) : List Char → List Char
  | [] => []
  | digit :: rest =>
      if rest ≠ [] ∧ rest.length % 3 = 0 then
        digit :: separator :: insertSeparators separator rest
      else
        digit :: insertSeparators separator rest

/--
The integer part in groups of three digits. It is left whole unless the first group would hold
`minimum` digits (at least one) before the first separator.
-/
def groupInteger (integer : List Char) (separator : Char) (minimum : Nat) : List Char :=
  if integer.length < 3 + max minimum 1 then integer else insertSeparators separator integer

/-- The numeral with the separators of a locale; without a group separator it is not grouped. -/
def render (numeral : Numeral) (grouping : Option (Char × Nat)) (decimal : Char) : List Char :=
  let integer :=
    match grouping with
    | some (separator, minimum) => groupInteger numeral.integer separator minimum
    | none => numeral.integer
  if numeral.fraction.isEmpty then integer else integer ++ decimal :: numeral.fraction

end Numeral

end LocalizedText
