import LocalizedText.Dictionary.Basic
import LocalizedText.Event

/-!
# Resolving keys

A key is looked up in the requested locale and then in a fallback. Only texts and plural forms
count; a key that leads to a node resolves to nothing.
-/

namespace LocalizedText

/-- What a key resolves to. -/
inductive Content where
  | text (content : String)
  | plural (forms : PluralForms)
deriving DecidableEq

/-- What a key resolves to, and the locale that it came from. -/
structure Resolution where
  content : Content
  locale : String
deriving DecidableEq

/-- The content of an entry, which nodes do not have. -/
def Entry.content? : Entry → Option Content
  | .text content => some (.text content)
  | .plural forms => some (.plural forms)
  | .node _ => none

namespace Dictionary

/-- What a key resolves to in a locale alone. -/
def resolveIn? (dictionary : Dictionary) (locale key : String) : Option Resolution := do
  let entries ← dictionary.locales.lookup locale
  let entry ← entries.lookup? key
  let content ← entry.content?
  return { content, locale }

/-- What a key resolves to in a locale or else in the fallback. -/
def resolve? (dictionary : Dictionary) (locale fallback key : String) : Option Resolution :=
  match dictionary.resolveIn? locale key with
  | some resolution => some resolution
  | none => if fallback = locale then none else dictionary.resolveIn? fallback key

/-- What is told about a key that does not resolve in its own locale. -/
def resolveEvents (dictionary : Dictionary) (locale fallback key : String) : List Event :=
  let debug (message : String) : Event :=
    { target := "lexis.resolve"
      level := .debug
      message
      fields := [("locale", locale), ("fallback", fallback), ("key", key)] }
  if (dictionary.resolveIn? locale key).isSome then []
  else if (dictionary.resolve? locale fallback key).isSome then
    [debug "resolved from fallback locale"]
  else [debug "key not found"]

end Dictionary

end LocalizedText
