/-!
# Timestamps

A timestamp is a moment in universal time. Its text is the date in the Gregorian calendar, extended
to all years, and the time of day to the millisecond. In a leap second the nanoseconds go on beyond
a full second, and the text shows a second sixty.
-/

namespace LocalizedText

/-- A moment: seconds since the beginning of 1970, and nanoseconds. -/
structure Timestamp where
  seconds : Int
  nanoseconds : Nat
deriving DecidableEq

namespace Timestamp

/-- A day of the Gregorian calendar. -/
structure Day where
  year : Int
  month : Nat
  day : Nat
deriving DecidableEq

/-- The day that is so many days after the first of January 1970. -/
def dayOfNumber (number : Int) : Day :=
  -- Years are counted from March, in eras of four hundred years, so that a leap day is the last day
  -- of its year.
  let shifted := number + 719468
  let era := shifted.fdiv 146097
  let dayOfEra := (shifted.fmod 146097).toNat
  let yearOfEra := (dayOfEra - dayOfEra / 1460 + dayOfEra / 36524 - dayOfEra / 146096) / 365
  let dayOfYear := dayOfEra - (365 * yearOfEra + yearOfEra / 4 - yearOfEra / 100)
  let monthFromMarch := (5 * dayOfYear + 2) / 153
  let month := if monthFromMarch < 10 then monthFromMarch + 3 else monthFromMarch - 9
  { year := yearOfEra + era * 400 + if month ≤ 2 then 1 else 0
    month
    day := dayOfYear - (153 * monthFromMarch + 2) / 5 + 1 }

/-- A natural number filled up with zeros to a number of digits. -/
def padded (width value : Nat) : String :=
  let digits := Nat.toDigits 10 value
  String.ofList (List.replicate (width - digits.length) '0' ++ digits)

/-- The text of a year: four digits, and a sign when these do not suffice. -/
def yearText (year : Int) : String :=
  if 0 ≤ year ∧ year ≤ 9999 then padded 4 year.toNat
  else (if year < 0 then "-" else "+") ++ padded 4 year.natAbs

def text (timestamp : Timestamp) : String :=
  let day := dayOfNumber (timestamp.seconds.fdiv 86400)
  let time := (timestamp.seconds.fmod 86400).toNat
  let leap := if timestamp.nanoseconds < 1000000000 then 0 else 1
  let milliseconds := timestamp.nanoseconds % 1000000000 / 1000000
  yearText day.year ++ "-" ++ padded 2 day.month ++ "-" ++ padded 2 day.day ++ "T" ++
    padded 2 (time / 3600) ++ ":" ++ padded 2 (time / 60 % 60) ++ ":" ++
    padded 2 (time % 60 + leap) ++ "." ++ padded 3 milliseconds ++ "Z"

end Timestamp

end LocalizedText
