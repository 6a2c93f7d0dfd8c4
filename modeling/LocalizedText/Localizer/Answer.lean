import LocalizedText.Localizer.Basic

/-!
# Answering

A lookup is answered in two steps, between which the dictionary may change. It begins with the
cache of results; when that has no answer, the lookup goes on with the dictionary of that moment. It
finishes by remembering its text, but only if the dictionary is still of the same generation.
Lookups without a text are answered by their key, are never remembered, and are reported. A lookup
whose text is filled in without end never returns and remembers nothing.
-/

namespace LocalizedText

/-- A lookup that goes on with the dictionary that was there when it began. -/
structure PendingLookup where
  lookup : Lookup
  dictionary : Dictionary
  generation : Nat

structure LookupAnswer where
  /-- The text that is returned, if the call ever returns. -/
  text : Option String
  /-- What the listener is told, if there is one. -/
  missing : Option MissingEntry

namespace Localizer

/-- The remembered text of a lookup, or the lookup as it goes on. -/
def begin (localizer : Localizer) (lookup : Lookup) : Except PendingLookup String × Localizer :=
  match localizer.results.get lookup.resultKey with
  | (some text, results) => (.ok text, { localizer with results })
  | (none, results) =>
      (.error ⟨lookup, localizer.dictionary, localizer.generation⟩, { localizer with results })

/-- The text of a pattern, if it is ever filled in. -/
def fill (localizer : Localizer) (mode : LookupMode) (pattern : Pattern)
    (parameters : Parameters) : Option String × Localizer × List Event :=
  match mode with
  | .message =>
      let (text, messages, events) :=
        localizer.messages.format pattern.text parameters pattern.locale
      (text, { localizer with messages }, events)
  | _ =>
      (some (Template.fill localizer.settings.placeholder pattern.text parameters), localizer,
        Template.fillEvents localizer.settings.placeholder pattern.text parameters)

/--
The text of a lookup by a dictionary, or the reason why there is none. A pattern that is found may
be filled in without end.
-/
def render (localizer : Localizer) (lookup : Lookup) (dictionary : Dictionary) :
    Except MissingReason (Option String) × Localizer × List Event :=
  let fallback := localizer.settings.fallbackLocale
  let resolveEvents := dictionary.resolveEvents lookup.locale fallback lookup.key
  match lookup.pattern localizer.rules fallback dictionary with
  | .ok pattern =>
      let (text, localizer, events) := localizer.fill lookup.mode pattern lookup.parameters
      (.ok text, localizer, resolveEvents ++ events)
  | .error reason =>
      (.error reason, localizer, resolveEvents ++ [lookup.missingEvent fallback reason])

/-- The localizer with the text of a lookup remembered, unless the dictionary has changed. -/
def finish (localizer : Localizer) (pending : PendingLookup) (text : String) : Localizer :=
  if localizer.generation = pending.generation then
    { localizer with results := localizer.results.insert pending.lookup.resultKey text }
  else localizer

def answer (localizer : Localizer) (lookup : Lookup) : LookupAnswer × Localizer × List Event :=
  match localizer.begin lookup with
  | (.ok text, localizer) => (⟨some text, none⟩, localizer, [])
  | (.error pending, localizer) =>
      match localizer.render lookup pending.dictionary with
      | (.ok (some text), localizer, events) =>
          (⟨some text, none⟩, localizer.finish pending text, events)
      | (.ok none, localizer, events) => (⟨none, none⟩, localizer, events)
      | (.error reason, localizer, events) =>
          let missing := if localizer.listening then some (lookup.missing reason) else none
          (⟨some lookup.key, missing⟩, localizer, events)

/-- The text of a key; of plural forms, the one for `other`. -/
def text (localizer : Localizer) (locale key : String) (parameters : Parameters) :
    LookupAnswer × Localizer × List Event :=
  localizer.answer
    { mode := .singular, locale := localizer.effectiveLocale locale, key, parameters }

/-- The text of a key for a count, which is also a parameter. -/
def countText (localizer : Localizer) (locale key : String) (count : Double)
    (parameters : Parameters) : LookupAnswer × Localizer × List Event :=
  let (answer, answered, events) :=
    localizer.answer (.ofCount (localizer.effectiveLocale locale) key count parameters)
  (answer, answered, PluralCount.normalizeEvents count ++ events)

/-- The text of a key whose entry is a message. -/
def messageText (localizer : Localizer) (locale key : String) (parameters : Parameters) :
    LookupAnswer × Localizer × List Event :=
  localizer.answer
    { mode := .message, locale := localizer.effectiveLocale locale, key, parameters }

/-- The text of a message that is no entry, if the call ever returns. -/
def formatMessage (localizer : Localizer) (locale message : String) (parameters : Parameters) :
    Option String × Localizer × List Event :=
  let (text, messages, events) :=
    localizer.messages.format message parameters (localizer.effectiveLocale locale)
  (text, { localizer with messages }, events)

def formatNumber (localizer : Localizer) (locale : String) (value : Double)
    (options : NumberOptions) : Option String × Localizer × List Event :=
  let (text, numbers, events) :=
    localizer.messages.numbers.format value (localizer.effectiveLocale locale) options
  (text, { localizer with messages := { localizer.messages with numbers } }, events)

end Localizer

end LocalizedText
