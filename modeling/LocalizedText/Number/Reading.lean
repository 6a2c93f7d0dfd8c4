import LocalizedText.Number.Single
import LocalizedText.Text.Blank

/-!
# Reading numbers

The decimal grammar is an optional sign, digits with an optional point (a digit on at least one
side of it), and an optional exponent. The words `inf`, `infinity` and `nan` are read in any case.
A numeral is read to the double, or the single, nearest to it.
-/

namespace LocalizedText

/-- A decimal numeral: `digits * 10 ^ exponent`, with a sign. -/
structure DecimalLiteral where
  negative : Bool
  digits : Nat
  exponent : Int
deriving DecidableEq

namespace DecimalLiteral

/-- The value of a sequence of decimal digits. -/
def digitsValue (digits : List Char) : Nat :=
  digits.foldl (fun value digit => 10 * value + (digit.toNat - '0'.toNat)) 0

/-- The literal with the given digits before and after the point. -/
def ofParts (negative : Bool) (integer fraction : List Char) (exponent : Int) : DecimalLiteral :=
  ⟨negative, digitsValue (integer ++ fraction), exponent - fraction.length⟩

/-- The number of decimal digits of a natural number. -/
def decimalLength (value : Nat) : Nat :=
  (Nat.toDigits 10 value).length

/-- The literal as a quotient of natural numbers, as far as the double nearest to it goes. -/
def quotient (literal : DecimalLiteral) : Nat × Nat :=
  let reach := (decimalLength literal.digits : Int) + literal.exponent
  -- Far above every double the quotient is cut to a value above them all, and far below every double
  -- to zero, so that a long exponent costs nothing.
  if literal.digits = 0 ∨ reach < -330 then (0, 1)
  else if 330 < reach then (10 ^ 330, 1)
  else (literal.digits * 10 ^ literal.exponent.toNat, 10 ^ (-literal.exponent).toNat)

/-- The double nearest to the literal. -/
def toDouble (literal : DecimalLiteral) : Double :=
  Double.ofQuotient literal.negative literal.quotient.1 literal.quotient.2

/-- The single nearest to the literal, as a double. -/
def toSingle (literal : DecimalLiteral) : Double :=
  Double.ofSingleQuotient literal.negative literal.quotient.1 literal.quotient.2

end DecimalLiteral

namespace Double

/-- The exponent that a numeral ends with, zero when it has none. -/
def readExponent? : List Char → Option Int
  | [] => some 0
  | mark :: rest =>
      if mark = 'e' ∨ mark = 'E' then
        let (negative, digits) :=
          match rest with
          | '-' :: digits => (true, digits)
          | '+' :: digits => (false, digits)
          | digits => (false, digits)
        if digits.isEmpty || !digits.all Char.isDigit then none
        else
          let value := DecimalLiteral.digitsValue digits
          some (if negative then -(value : Int) else value)
      else
        none

/-- An unsigned decimal numeral. -/
def readNumeral? (negative : Bool) (text : List Char) : Option DecimalLiteral :=
  let integer := text.takeWhile Char.isDigit
  let rest := text.dropWhile Char.isDigit
  let (fraction, rest) :=
    match rest with
    | '.' :: rest => (rest.takeWhile Char.isDigit, rest.dropWhile Char.isDigit)
    | rest => ([], rest)
  if integer.isEmpty && fraction.isEmpty then none
  else (readExponent? rest).map (DecimalLiteral.ofParts negative integer fraction)

/-- The sign that a numeral starts with, and the rest. -/
def readSign : List Char → Bool × List Char
  | '-' :: rest => (true, rest)
  | '+' :: rest => (false, rest)
  | rest => (false, rest)

/-- What a text denotes, its numerals rounded by the given function. -/
def readWith? (round : DecimalLiteral → Double) (text : List Char) : Option Double :=
  let (negative, unsigned) := readSign text
  match readNumeral? negative unsigned with
  | some literal => some (round literal)
  | none =>
      let word := unsigned.map Char.toLower
      if word = "inf".toList ∨ word = "infinity".toList then some (infinite negative)
      else if word = "nan".toList then some notANumber
      else none

/-- The double that a text denotes. -/
def read? (text : List Char) : Option Double :=
  readWith? DecimalLiteral.toDouble text

/-- The single that a text denotes, as a double. -/
def readSingle? (text : List Char) : Option Double :=
  readWith? DecimalLiteral.toSingle text

end Double

end LocalizedText
