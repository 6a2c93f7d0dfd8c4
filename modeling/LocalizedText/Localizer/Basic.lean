import LocalizedText.Dictionary.Coverage
import LocalizedText.Dictionary.Validation
import LocalizedText.Localizer.Lookup
import LocalizedText.Settings

/-!
# Localizers

A localizer holds a dictionary and everything that is needed to answer from it: plural rules, the
formatters of messages and numbers, and a cache of results. The dictionary may grow or be replaced;
each change begins a new generation and forgets all results.
-/

namespace LocalizedText

/-- A dictionary with what is needed to answer from it. -/
structure Localizer where
  settings : Settings
  dictionary : Dictionary
  /-- The number of changes of the dictionary. -/
  generation : Nat
  rules : PluralRules
  /-- The formatter of messages, whose number formatter serves all numbers. -/
  messages : MessageFormatter
  results : ResultCache
  /-- The report on what was loaded last. -/
  report : ValidationReport
  /-- Whether somebody is told about lookups without a text. -/
  listening : Bool

namespace Localizer

/-- The report on a dictionary, which is empty when the settings ask for none. -/
def check (settings : Settings) (dictionary : Dictionary) : ValidationReport :=
  if settings.validateOnLoad then dictionary.validate else {}

/-- The number formatter that settings ask for. -/
def numbersFor (settings : Settings) : NumberFormatter :=
  if settings.nativeFormatting then .ofCapacity settings.planCapacity else .manual

/-- A localizer of the given parts, with what is told about its dictionary. -/
def ofParts (settings : Settings) (dictionary : Dictionary) (rules : PluralRules)
    (numbers : Option NumberFormatter) (listening : Bool) : Localizer × List Event :=
  let report := check settings dictionary
  let numbers := numbers.getD (numbersFor settings)
  ({ settings, dictionary, rules, report, listening,
     generation := 0
     messages := .ofParts numbers rules settings.messageCapacity
     results := .empty settings.resultCapacity },
    report.events)

/-- A localizer with the usual settings. -/
def ofDictionary (dictionary : Dictionary) : Localizer × List Event :=
  ofParts {} dictionary {} none false

/-- A localizer of the given parts, if its settings are usable. -/
def build (settings : Settings) (dictionary : Dictionary) (rules : PluralRules)
    (numbers : Option NumberFormatter) (listening : Bool) :
    Except SettingsError (Localizer × List Event) :=
  settings.validated.map fun settings => ofParts settings dictionary rules numbers listening

/-- The locale that a request is for: the usual one when it names none. -/
def effectiveLocale (localizer : Localizer) (locale : String) : String :=
  if locale.isEmpty then localizer.settings.defaultLocale else locale

/-- The localizer with another dictionary, after something was loaded. -/
def change (localizer : Localizer) (dictionary : Dictionary) (report : ValidationReport) :
    Localizer :=
  { localizer with
    dictionary
    report
    generation := localizer.generation + 1
    results := localizer.results.clear
    messages := localizer.messages.clear }

/-- The localizer with a dictionary merged into its own, and the report on that dictionary. -/
def add (localizer : Localizer) (incoming : Dictionary) :
    ValidationReport × Localizer × List Event :=
  let report := check localizer.settings incoming
  (report, localizer.change (localizer.dictionary.merge incoming) report, report.events)

/-- The localizer with another dictionary, and the report on it. -/
def replace (localizer : Localizer) (incoming : Dictionary) :
    ValidationReport × Localizer × List Event :=
  let report := check localizer.settings incoming
  (report, localizer.change incoming report, report.events)

/-- Whether a locale itself, without the help of the fallback, has a text for a key. -/
def has (localizer : Localizer) (locale key : String) : Bool × List Event :=
  let locale := localizer.effectiveLocale locale
  ((localizer.dictionary.resolve? locale locale key).isSome,
    localizer.dictionary.resolveEvents locale locale key)

def coverage (localizer : Localizer) : CoverageReport × List Event :=
  (localizer.dictionary.coverage localizer.settings.fallbackLocale,
    localizer.dictionary.coverageEvents localizer.settings.fallbackLocale)

/-- The localizer with all results and messages forgotten. -/
def clearCache (localizer : Localizer) : Localizer × List Event :=
  ({ localizer with
     results := localizer.results.clear
     messages := localizer.messages.clear },
    [{ target := "lexis.translate"
       level := .debug
       message := "translation cache cleared"
       fields := [] }])

/-- The localizer with the counts of its result cache set back. -/
def resetStats (localizer : Localizer) : Localizer :=
  { localizer with results := localizer.results.resetStats }

def stats (localizer : Localizer) : ResultStats :=
  localizer.results.stats

def describe (localizer : Localizer) : String :=
  let locales := ", ".intercalate (localizer.dictionary.tags.map Text.quoted)
  "TranslationManager \x7b config: " ++ localizer.settings.describe ++
    s!", locales: [{locales}], cache: {localizer.stats.describe}, " ++
    s!"on_missing: {localizer.listening} \x7d"

end Localizer

end LocalizedText
