import LocalizedText.Dictionary.Basic
import LocalizedText.Json.Source
import LocalizedText.Text.Quoted

/-!
# Loading dictionaries

A dictionary is loaded from a JSON object of locales. An object is a set of plural forms when it has
members, all of them named by category keywords and all of them texts; any other object is a node.
Whatever is neither a text nor an object is refused, and the first such value, in the order of the
names, is reported by its path.
-/

namespace LocalizedText

/-- Why a dictionary cannot be loaded. -/
inductive LoadError where
  /-- The text is no JSON. -/
  | malformed
  /-- There is no such file, or it holds no text. -/
  | unreadable
  /-- The value on a path is neither a text nor an object. -/
  | invalidEntry (path found : String)
deriving DecidableEq

def LoadError.message : LoadError → String
  | .malformed => "dictionary parse error"
  | .unreadable => "I/O error"
  | .invalidEntry path found =>
      s!"invalid entry at {Text.quoted path}: expected a string or an object, found {found}"

namespace PluralForms

/-- Forms with the texts of members added, if these are all texts of categories. -/
def addMembers? (forms : PluralForms) : List (String × Json) → Option PluralForms
  | [] => some forms
  | (name, value) :: rest =>
      match PluralCategory.ofName? name, value with
      | some category, .string text => addMembers? (forms.insert category text) rest
      | _, _ => none

/-- The plural forms that the members of an object are, if they are any. -/
def ofMembers? (members : List (String × Json)) : Option PluralForms :=
  if members.isEmpty then none else addMembers? {} members

end PluralForms

namespace Entries

mutual

/-- The entry of a JSON value on a path. -/
def entryOfJson (path : String) : Json → Except LoadError Entry
  | .string text => .ok (.text text)
  | .object members =>
      match PluralForms.ofMembers? members with
      | some forms => .ok (.plural forms)
      | none => (ofMembers path members).map .node
  | .null => .error (.invalidEntry path Json.null.kind)
  | .bool value => .error (.invalidEntry path (Json.bool value).kind)
  | .number value => .error (.invalidEntry path (Json.number value).kind)
  | .array items => .error (.invalidEntry path (Json.array items).kind)

/-- The entries of the members of an object on a path. -/
def ofMembers (path : String) : List (String × Json) → Except LoadError Entries
  | [] => .ok []
  | (name, value) :: rest => do
      let entry ← entryOfJson (joinPath path name) value
      let rest ← ofMembers path rest
      return (name, entry) :: rest

end

/-- The entries of a JSON object on a path. -/
def ofJsonAt (path : String) : Json → Except LoadError Entries
  | .object members => ofMembers path members
  | json => .error (.invalidEntry path json.kind)

/-- The entries of a JSON object. -/
def ofJson (json : Json) : Except LoadError Entries :=
  ofJsonAt "" json

end Entries

namespace Dictionary

/-- The entries of locales, given as the members of an object. -/
def localesOfMembers : List (String × Json) → Except LoadError (List (String × Entries))
  | [] => .ok []
  | (locale, value) :: rest => do
      let entries ← Entries.ofJsonAt locale value
      let rest ← localesOfMembers rest
      return (locale, entries) :: rest

/-- The dictionary of a JSON object. -/
def ofJson : Json → Except LoadError Dictionary
  | .object members => (localesOfMembers members).map fun locales => { locales }
  | json => .error (.invalidEntry "" json.kind)

/-- The dictionary of a JSON text. -/
def ofText (text : String) : Except LoadError Dictionary :=
  match Json.read? text with
  | some json => ofJson json
  | none => .error .malformed

/-- The dictionary of the bytes of a file, if there is such a file. -/
def ofFile (contents : Option ByteArray) : Except LoadError Dictionary :=
  match contents.bind String.fromUTF8? with
  | some text => ofText text
  | none => .error .unreadable

end Dictionary

end LocalizedText
