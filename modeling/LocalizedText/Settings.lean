import LocalizedText.Json.Record
import LocalizedText.Message.Formatter
import LocalizedText.Template

/-!
# Settings

Everything that can be tuned about a localizer, read from a JSON record. Settings are usable when no
locale is blank and the caches of results and of number plans have room.
-/

namespace LocalizedText

/-- The settings of a localizer. -/
structure Settings where
  /-- The locale of a request that names none. -/
  defaultLocale : String := "en"
  /-- The locale that is asked when the requested one has no entry. -/
  fallbackLocale : String := "en"
  /-- How many results are remembered. -/
  resultCapacity : Nat := 1000
  /-- How many number plans are remembered. -/
  planCapacity : Nat := NumberFormatter.usualCapacity
  /-- How many messages are remembered; none are for zero. -/
  messageCapacity : Nat := MessageFormatter.usualCapacity
  /-- The delimiters of placeholders in dictionaries. -/
  placeholder : BraceStyle := .double
  /-- Whether dictionaries are checked when they are loaded. -/
  validateOnLoad : Bool := true
  /-- Whether numbers are formatted with locale data. -/
  nativeFormatting : Bool := true
deriving DecidableEq

instance : Inhabited Settings := ⟨{}⟩

/-- What makes settings unusable. -/
inductive SettingsProblem where
  | blankDefaultLocale
  | blankFallbackLocale
  | noResultCapacity
  | noPlanCapacity
deriving DecidableEq

def SettingsProblem.description : SettingsProblem → String
  | blankDefaultLocale => "default_locale must not be empty"
  | blankFallbackLocale => "fallback_locale must not be empty"
  | noResultCapacity => "cache_capacity must be > 0"
  | noPlanCapacity => "formatter_cache_capacity must be > 0"

/-- Why settings cannot be used. -/
inductive SettingsError where
  /-- The text is no JSON record of settings. -/
  | malformed
  /-- There is no such file, or it holds no text. -/
  | unreadable
  | unusable (problems : List SettingsProblem)
deriving DecidableEq

def SettingsError.message : SettingsError → String
  | malformed => "JSON parse error"
  | unreadable => "I/O error"
  | unusable problems =>
      "validation errors: " ++ "; ".intercalate (problems.map SettingsProblem.description)

namespace BraceStyle

def names : List (String × BraceStyle) :=
  [("double_brace", double), ("single_brace", single)]

/-- The name of delimiters in records. -/
def name : BraceStyle → String
  | double => "double_brace"
  | single => "single_brace"

/-- The name of delimiters in descriptions. -/
def describe : BraceStyle → String
  | double => "DoubleBrace"
  | single => "SingleBrace"

end BraceStyle

namespace Settings

/-- A locale tag that consists of blanks alone. -/
def isBlankTag (tag : String) : Bool :=
  tag.toList.all Text.isBlank

/-- What makes the settings unusable. -/
def problems (settings : Settings) : List SettingsProblem :=
  (if isBlankTag settings.defaultLocale then [.blankDefaultLocale] else []) ++
    (if isBlankTag settings.fallbackLocale then [.blankFallbackLocale] else []) ++
    (if settings.resultCapacity = 0 then [.noResultCapacity] else []) ++
    (if settings.planCapacity = 0 then [.noPlanCapacity] else [])

/-- The settings, if they are usable. -/
def validated (settings : Settings) : Except SettingsError Settings :=
  if settings.problems.isEmpty then .ok settings else .error (.unusable settings.problems)

/-- The names of the fields, in their order. -/
def fieldNames : List String :=
  ["default_locale", "fallback_locale", "cache_capacity", "formatter_cache_capacity",
    "message_cache_capacity", "placeholder", "validate_on_load", "native_formatting"]

def readCapacity? (source : JsonSource) : Option Nat :=
  source.natural? (2 ^ 64)

/-- The settings of a record. -/
def ofSource? (source : JsonSource) : Option Settings :=
  let usual : Settings := {}
  match source.fields? fieldNames with
  | some [defaultLocale, fallbackLocale, resultCapacity, planCapacity, messageCapacity,
      placeholder, validateOnLoad, nativeFormatting] => do
      return {
        defaultLocale :=
          ← JsonSource.field? JsonSource.text? usual.defaultLocale defaultLocale
        fallbackLocale :=
          ← JsonSource.field? JsonSource.text? usual.fallbackLocale fallbackLocale
        resultCapacity := ← JsonSource.field? readCapacity? usual.resultCapacity resultCapacity
        planCapacity := ← JsonSource.field? readCapacity? usual.planCapacity planCapacity
        messageCapacity :=
          ← JsonSource.field? readCapacity? usual.messageCapacity messageCapacity
        placeholder :=
          ← JsonSource.field? (·.choice? BraceStyle.names) usual.placeholder placeholder
        validateOnLoad :=
          ← JsonSource.field? JsonSource.truth? usual.validateOnLoad validateOnLoad
        nativeFormatting :=
          ← JsonSource.field? JsonSource.truth? usual.nativeFormatting nativeFormatting }
  | _ => none

/-- The settings that a JSON text gives. -/
def ofText (text : String) : Except SettingsError Settings :=
  match JsonSource.read? text >>= ofSource? with
  | some settings => .ok settings
  | none => .error .malformed

/-- The settings that the bytes of a file give, if there is such a file. -/
def ofFile (contents : Option ByteArray) : Except SettingsError Settings :=
  match contents.bind String.fromUTF8? with
  | some text => ofText text
  | none => .error .unreadable

/-- The settings as a record with all of its fields, in their order. -/
def toJson (settings : Settings) : Json :=
  .object (fieldNames.zip
    [.string settings.defaultLocale, .string settings.fallbackLocale,
      .number (.integer settings.resultCapacity), .number (.integer settings.planCapacity),
      .number (.integer settings.messageCapacity), .string settings.placeholder.name,
      .bool settings.validateOnLoad, .bool settings.nativeFormatting])

def describe (settings : Settings) : String :=
  let values :=
    [Text.quoted settings.defaultLocale, Text.quoted settings.fallbackLocale,
      toString settings.resultCapacity, toString settings.planCapacity,
      toString settings.messageCapacity, settings.placeholder.describe,
      toString settings.validateOnLoad, toString settings.nativeFormatting]
  let fields := (fieldNames.zip values).map fun (name, value) => name ++ ": " ++ value
  "I18nConfig \x7b " ++ ", ".intercalate fields ++ " \x7d"

end Settings

end LocalizedText
