import LocalizedText.Json.Record
import LocalizedText.Number.Options

/-!
# Number options as JSON

The names of the fields and values of number options in JSON, and how options are read and written.
-/

namespace LocalizedText

namespace NumberStyle

def names : List (String × NumberStyle) :=
  [("decimal", decimal), ("currency", currency), ("percent", percent), ("unit", unit)]

def name : NumberStyle → String
  | decimal => "decimal"
  | currency => "currency"
  | percent => "percent"
  | unit => "unit"

end NumberStyle

namespace NumberForm

def names : List (String × NumberForm) :=
  [("standard", standard), ("compact", compact), ("scientific", scientific)]

def name : NumberForm → String
  | standard => "standard"
  | compact => "compact"
  | scientific => "scientific"

end NumberForm

namespace CompactDisplay

def names : List (String × CompactDisplay) :=
  [("short", short), ("long", long)]

def name : CompactDisplay → String
  | short => "short"
  | long => "long"

end CompactDisplay

namespace SignDisplay

def names : List (String × SignDisplay) :=
  [("auto", auto), ("never", never), ("always", always), ("exceptZero", exceptZero)]

def name : SignDisplay → String
  | auto => "auto"
  | never => "never"
  | always => "always"
  | exceptZero => "exceptZero"

end SignDisplay

namespace UnitDisplay

def names : List (String × UnitDisplay) :=
  [("short", short), ("long", long), ("narrow", narrow)]

def name : UnitDisplay → String
  | short => "short"
  | long => "long"
  | narrow => "narrow"

end UnitDisplay

namespace NumberOptions

/-- The names of the fields, in their order. -/
def fieldNames : List String :=
  ["style", "currency", "unit", "unitDisplay", "notation", "compactDisplay", "signDisplay",
    "useGrouping", "minimumIntegerDigits", "minimumFractionDigits", "maximumFractionDigits",
    "minimumSignificantDigits", "maximumSignificantDigits"]

def readBound? : JsonSource → Option (Option UInt8) :=
  JsonSource.orNull? fun source => (source.natural? 256).map UInt8.ofNat

/-- The options of a record. -/
def ofSource? (source : JsonSource) : Option NumberOptions :=
  match source.fields? fieldNames with
  | some [style, currency, unit, unitDisplay, form, compactDisplay, signDisplay, grouping,
      minimumInteger, minimumFraction, maximumFraction, minimumSignificant,
      maximumSignificant] => do
      return {
        style := ← JsonSource.field? (·.choice? NumberStyle.names) .decimal style
        currency := ← JsonSource.field? (JsonSource.orNull? JsonSource.text?) none currency
        unit := ← JsonSource.field? (JsonSource.orNull? JsonSource.text?) none unit
        unitDisplay := ← JsonSource.field? (·.choice? UnitDisplay.names) .short unitDisplay
        form := ← JsonSource.field? (·.choice? NumberForm.names) .standard form
        compactDisplay :=
          ← JsonSource.field? (·.choice? CompactDisplay.names) .short compactDisplay
        signDisplay := ← JsonSource.field? (·.choice? SignDisplay.names) .auto signDisplay
        grouping := ← JsonSource.field? JsonSource.truth? true grouping
        minimumInteger := ← JsonSource.field? readBound? none minimumInteger
        minimumFraction := ← JsonSource.field? readBound? none minimumFraction
        maximumFraction := ← JsonSource.field? readBound? none maximumFraction
        minimumSignificant := ← JsonSource.field? readBound? none minimumSignificant
        maximumSignificant := ← JsonSource.field? readBound? none maximumSignificant }
  | _ => none

/-- The options that a JSON text gives. -/
def ofText? (text : String) : Option NumberOptions :=
  JsonSource.read? text >>= ofSource?

def writeText (text : Option String) : Json :=
  match text with
  | some text => .string text
  | none => .null

def writeBound (bound : Option UInt8) : Json :=
  match bound with
  | some bound => .number (.integer bound.toNat)
  | none => .null

/-- The options as a record with all of its fields, in their order. -/
def toJson (options : NumberOptions) : Json :=
  .object (fieldNames.zip
    [.string options.style.name, writeText options.currency, writeText options.unit,
      .string options.unitDisplay.name, .string options.form.name,
      .string options.compactDisplay.name, .string options.signDisplay.name,
      .bool options.grouping, writeBound options.minimumInteger,
      writeBound options.minimumFraction, writeBound options.maximumFraction,
      writeBound options.minimumSignificant, writeBound options.maximumSignificant])

end NumberOptions

end LocalizedText
