import LocalizedText.Cache.Result
import LocalizedText.Dictionary.Resolution
import LocalizedText.Parameter.Basic
import LocalizedText.Plural.Rule

/-!
# Lookups

A lookup asks for the text of a key in a locale. A key whose entry has plural forms is asked for
with a count or without; an entry may also be a message. What a lookup finds in a dictionary is a
pattern: the text that is still to be filled in, and the locale that supplied it, whose rules then
apply. A lookup that finds no pattern is answered by its key.
-/

namespace LocalizedText

/-- How the text of a key is asked for. -/
inductive LookupMode where
  /-- A text with placeholders; of plural forms, the one for `other`. -/
  | singular
  /-- A text with placeholders; of plural forms, the one for a count. -/
  | plural (count : Double)
  /-- A message. -/
  | message
deriving DecidableEq

/-- A request for the text of a key. -/
structure Lookup where
  mode : LookupMode
  locale : String
  key : String
  parameters : Parameters

/-- Why a lookup has no text. -/
inductive MissingReason where
  /-- Neither the locale nor the fallback has a text or plural forms for the key. -/
  | notFound
  /-- The plural forms have neither the text of the category nor that of `other`. -/
  | incompletePlural
deriving DecidableEq

/-- A lookup without a text, as a listener is told. -/
structure MissingEntry where
  locale : String
  key : String
  reason : MissingReason
deriving DecidableEq

/-- A text to be filled in, and the locale that supplied it. -/
structure Pattern where
  text : String
  locale : String
deriving DecidableEq

def MissingReason.name : MissingReason → String
  | notFound => "NotFound"
  | incompletePlural => "IncompletePlural"

namespace LookupMode

def kind : LookupMode → LookupKind
  | singular => .singular
  | plural _ => .plural
  | message => .message

/-- The category of the plural form that a request asks for in a locale. -/
def category (rules : PluralRules) (locale : String) : LookupMode → PluralCategory
  | plural count => rules.select locale count
  | _ => .other

end LookupMode

namespace Lookup

/-- A request by a count, which joins the parameters; zero stands for one that is not finite. -/
def ofCount (locale key : String) (count : Double) (parameters : Parameters) : Lookup :=
  let count := if count.isFinite then count else .zero
  { mode := .plural count
    locale
    key
    parameters := parameters.insert "count" (.number count) }

/-- What the answer to a lookup is remembered under. -/
def resultKey (lookup : Lookup) : ResultKey where
  kind := lookup.mode.kind
  locale := lookup.locale
  key := lookup.key
  fingerprint := lookup.parameters.fingerprint

/-- The pattern that a lookup finds in a dictionary. -/
def pattern (lookup : Lookup) (rules : PluralRules) (fallback : String)
    (dictionary : Dictionary) : Except MissingReason Pattern :=
  match dictionary.resolve? lookup.locale fallback lookup.key with
  | none => .error .notFound
  | some ⟨.text text, locale⟩ => .ok ⟨text, locale⟩
  | some ⟨.plural forms, locale⟩ =>
      match forms.select (lookup.mode.category rules locale) with
      | some text => .ok ⟨text, locale⟩
      | none => .error .incompletePlural

/-- What a listener is told when a lookup has no text. -/
def missing (lookup : Lookup) (reason : MissingReason) : MissingEntry :=
  ⟨lookup.locale, lookup.key, reason⟩

/-- What is told when a lookup has no text. -/
def missingEvent (lookup : Lookup) (fallback : String) (reason : MissingReason) : Event where
  target := "lexis.translate"
  level := .warn
  message := "missing translation"
  fields :=
    [("locale", lookup.locale), ("fallback", fallback), ("key", lookup.key),
      ("reason", reason.name)]

end Lookup

end LocalizedText
