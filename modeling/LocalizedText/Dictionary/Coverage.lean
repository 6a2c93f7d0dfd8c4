import LocalizedText.Dictionary.Resolution
import LocalizedText.Number.Single

/-!
# Coverage

How much of what some locale says can be said in each locale, with the fallback's help: the keys of
all locales together are the reference, and a key is present when it resolves.
-/

namespace LocalizedText

structure LocaleCoverage where
  locale : String
  /-- The number of keys that resolve. -/
  present : Nat
  /-- The keys that do not resolve, in ascending order. -/
  missing : List String
  /-- The share of keys that resolve, in single precision. -/
  percent : Double
deriving DecidableEq

structure CoverageReport where
  /-- The number of keys of all locales. -/
  total : Nat
  locales : List LocaleCoverage
deriving DecidableEq

namespace Dictionary

def sortTexts (texts : List String) : List String :=
  texts.mergeSort fun left right => decide (left ≤ right)

/-- The keys of all locales, each once, in ascending order. -/
def allKeys (dictionary : Dictionary) : List String :=
  (sortTexts (dictionary.locales.flatMap fun (_, entries) => entries.leafKeys)).eraseReps

/-- The keys that resolve neither in a locale nor in the fallback, in ascending order. -/
def missingKeys (dictionary : Dictionary) (locale fallback : String) (keys : List String) :
    List String :=
  sortTexts (keys.filter fun key => (dictionary.resolve? locale fallback key).isNone)

/-- What is told while missing keys are looked for. -/
def missingKeysEvents (dictionary : Dictionary) (locale fallback : String)
    (keys : List String) : List Event :=
  keys.flatMap (dictionary.resolveEvents locale fallback)

/-- The coverage of a locale among the given keys. -/
def coverageOf (dictionary : Dictionary) (fallback : String) (keys : List String)
    (locale : String) : LocaleCoverage :=
  let missing := dictionary.missingKeys locale fallback keys
  let present := keys.length - missing.length
  { locale
    present
    missing
    percent :=
      if keys.isEmpty then Double.ofNat 100
      else Double.singlePercentage present keys.length }

def coverage (dictionary : Dictionary) (fallback : String) : CoverageReport :=
  let keys := dictionary.allKeys
  ⟨keys.length, dictionary.tags.map (dictionary.coverageOf fallback keys)⟩

/-- What is told while the coverage is determined. -/
def coverageEvents (dictionary : Dictionary) (fallback : String) : List Event :=
  dictionary.tags.flatMap fun locale =>
    dictionary.missingKeysEvents locale fallback dictionary.allKeys

end Dictionary

end LocalizedText
