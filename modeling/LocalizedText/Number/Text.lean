import LocalizedText.Number.Numeral

/-!
# Numbers as text

The plain text of a double has its shortest digits, written positionally in a middle range of
magnitudes and with an exponent outside of it. Two ways of writing are used: one for people, and
one for keys and descriptions, in which a whole number shows its fraction.
-/

namespace LocalizedText

/-- How the shortest digits of a double are laid out. -/
structure DoubleText where
  tie : DecimalTie
  /-- The exponents of ten of the first digit that are written without an exponent. -/
  leastPositional : Int
  greatestPositional : Int
  /-- Whether a whole number ends in a point and a zero. -/
  keepsFraction : Bool
  /-- Whether zero keeps its sign. -/
  keepsZeroSign : Bool

namespace DoubleText

/-- The text of an exponent, always with a sign. -/
def exponentText (exponent : Int) : List Char :=
  (if exponent < 0 then '-' else '+') :: Nat.toDigits 10 exponent.natAbs

/-- The text of a positive decimal. -/
def writeDecimal (style : DoubleText) (decimal : Decimal) : List Char :=
  let digits := Nat.toDigits 10 decimal.digits
  let point : Int := decimal.exponent + digits.length
  let digits := Numeral.trimZeros digits
  if style.leastPositional ≤ point - 1 ∧ point - 1 ≤ style.greatestPositional then
    let numeral := Numeral.ofDigits digits point
    if numeral.fraction.isEmpty then
      if style.keepsFraction then numeral.integer ++ ['.', '0'] else numeral.integer
    else numeral.integer ++ '.' :: numeral.fraction
  else
    match digits with
    | [] => []
    | [digit] => digit :: 'e' :: exponentText (point - 1)
    | digit :: rest => digit :: '.' :: rest ++ 'e' :: exponentText (point - 1)

/-- The text of a double. -/
def write (style : DoubleText) : Double → String
  | .notANumber => "NaN"
  | .infinite negative => if negative then "-Infinity" else "Infinity"
  | .finite negative magnitude =>
      if magnitude.units = 0 then
        let zero := if style.keepsFraction then "0.0" else "0"
        if negative && style.keepsZeroSign then "-" ++ zero else zero
      else
        let text := String.ofList (style.writeDecimal (magnitude.shortest style.tie))
        if negative then "-" ++ text else text

/--
Numbers for people: positional from a millionth up to `10 ^ 21`, no fraction on whole numbers, zero
without a sign.
-/
def display : DoubleText := ⟨.upward, -6, 20, false, false⟩

/--
Numbers in keys and descriptions: positional from `10 ^ -5` up to `10 ^ 16`, and always with a
fraction or an exponent.
-/
def canonical : DoubleText := ⟨.toEven, -5, 15, true, true⟩

end DoubleText

/-- The plain text of a double. -/
def Double.display (value : Double) : String :=
  DoubleText.display.write value

/-- The text of a double in keys and descriptions. -/
def Double.canonicalText (value : Double) : String :=
  DoubleText.canonical.write value

end LocalizedText
