/-!
# Units

The English names of the units that quantities may be given in.
-/

namespace LocalizedText

/-- The names of a unit. -/
structure UnitNames where
  short : String
  narrow : String
  singular : String
  plural : String
  /-- The short name follows the number without a space. -/
  attached : Bool := false
deriving DecidableEq

namespace UnitNames

def all : List (String × UnitNames) :=
  [("meter", ⟨"m", "m", "meter", "meters", false⟩),
    ("kilometer", ⟨"km", "km", "kilometer", "kilometers", false⟩),
    ("centimeter", ⟨"cm", "cm", "centimeter", "centimeters", false⟩),
    ("mile", ⟨"mi", "mi", "mile", "miles", false⟩),
    ("foot", ⟨"ft", "′", "foot", "feet", false⟩),
    ("inch", ⟨"in", "″", "inch", "inches", false⟩),
    ("gram", ⟨"g", "g", "gram", "grams", false⟩),
    ("kilogram", ⟨"kg", "kg", "kilogram", "kilograms", false⟩),
    ("pound", ⟨"lb", "lb", "pound", "pounds", false⟩),
    ("liter", ⟨"L", "L", "liter", "liters", false⟩),
    ("second", ⟨"sec", "s", "second", "seconds", false⟩),
    ("minute", ⟨"min", "m", "minute", "minutes", false⟩),
    ("hour", ⟨"hr", "h", "hour", "hours", false⟩),
    ("day", ⟨"day", "d", "day", "days", false⟩),
    ("byte", ⟨"byte", "B", "byte", "bytes", false⟩),
    ("kilobyte", ⟨"kB", "kB", "kilobyte", "kilobytes", false⟩),
    ("megabyte", ⟨"MB", "MB", "megabyte", "megabytes", false⟩),
    ("gigabyte", ⟨"GB", "GB", "gigabyte", "gigabytes", false⟩),
    ("percent", ⟨"%", "%", "percent", "percent", true⟩),
    ("celsius", ⟨"°C", "°C", "degree Celsius", "degrees Celsius", true⟩),
    ("fahrenheit", ⟨"°F", "°", "degree Fahrenheit", "degrees Fahrenheit", true⟩)]

/-- The names of a unit, if it is known. -/
def find? (unit : String) : Option UnitNames :=
  all.lookup unit

end UnitNames

end LocalizedText
