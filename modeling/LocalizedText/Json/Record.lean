import LocalizedText.Json.Source

/-!
# Records as JSON

A record is written as an object, in which unknown members are passed over, or as the list of its
fields in their order. A field that is left out has its usual value; one that is given twice, or is
not of its type, spoils the record.
-/

namespace LocalizedText

namespace JsonSource

/-- What is written for each of the named fields of a record. -/
def fields? (names : List String) : JsonSource → Option (List (Option JsonSource))
  | object members =>
      if members.any fun member => member.1.isNone then none
      else
        names.mapM fun name =>
          match members.filter fun member => member.1 == some name with
          | [] => some none
          | [(_, value)] => some (some value)
          | _ => none
  | array items =>
      if names.length < items.length then none
      else some (items.map some ++ List.replicate (names.length - items.length) none)
  | _ => none

/-- A field with a usual value. -/
def field? {α : Type} (read : JsonSource → Option α) (usual : α) :
    Option JsonSource → Option α
  | none => some usual
  | some source => read source

/-- A field that may be null. -/
def orNull? {α : Type} (read : JsonSource → Option α) : JsonSource → Option (Option α)
  | null => some none
  | source => (read source).map some

def text? : JsonSource → Option String
  | string text => text
  | _ => none

def truth? : JsonSource → Option Bool
  | bool value => some value
  | _ => none

/-- A natural number below a bound, written without a sign, a point or an exponent. -/
def natural? (bound : Nat) : JsonSource → Option Nat
  | number numeral => numeral.natural?.filter fun natural => natural < bound
  | _ => none

/-- One of some named values, written as its name or as an object with it as only member. -/
def choice? {α : Type} (values : List (String × α)) : JsonSource → Option α
  | string (some name) => values.lookup name
  | object [(some name, null)] => values.lookup name
  | _ => none

end JsonSource

end LocalizedText
