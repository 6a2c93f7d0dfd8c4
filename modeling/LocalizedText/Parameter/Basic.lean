import LocalizedText.Json.Basic
import LocalizedText.Number.Reading
import LocalizedText.Parameter.Timestamp
import LocalizedText.Text.Blank

/-!
# Parameters

Texts are filled in from parameters: texts, numbers, truth values and dates, and bags of further
parameters that dotted paths reach into. A value without a text, such as a list, stays a parameter
that is only known by its kind.
-/

namespace LocalizedText

/-- The kinds of values that have no text. -/
inductive OpaqueKind where
  | null
  | array
deriving DecidableEq

def OpaqueKind.name : OpaqueKind → String
  | null => "null"
  | array => "array"

/-- The value of a parameter. -/
inductive ParameterValue where
  | text (value : String)
  | number (value : Double)
  | truth (value : Bool)
  | date (value : Timestamp)
  | bag (parameters : List (String × ParameterValue))
  /-- A value that cannot be shown. -/
  | withoutText (kind : OpaqueKind)

instance : Inhabited ParameterValue := ⟨.withoutText .null⟩

/-- Parameters by name, in ascending order of their names. -/
abbrev Parameters := List (String × ParameterValue)

namespace ParameterValue

mutual

/-- The parameter value of a JSON value. -/
def ofJson : Json → ParameterValue
  | .null => withoutText .null
  | .bool value => truth value
  | .number value => number value.toDouble
  | .string value => text value
  | .array _ => withoutText .array
  | .object members => bag (ofMembers members)

/-- The parameters of the members of an object. -/
def ofMembers : List (String × Json) → Parameters
  | [] => []
  | (name, value) :: rest => (name, ofJson value) :: ofMembers rest

end

/-- The text of a value, which bags and values without a text do not have. -/
def display? : ParameterValue → Option String
  | text value => some value
  | number value => some value.display
  | truth value => some (if value then "true" else "false")
  | date value => some value.text
  | bag _ => none
  | withoutText _ => none

/-- The number that a value is or, as a text without the blanks around it, denotes. -/
def toNumber? : ParameterValue → Option Double
  | number value => some value
  | text value => Double.read? (Text.trim value.toList)
  | _ => none

def kind : ParameterValue → String
  | text _ => "string"
  | number _ => "number"
  | truth _ => "boolean"
  | date _ => "date"
  | bag _ => "object"
  | withoutText kind => kind.name

mutual

/-- Whether two values are the same; what is no number is never the same as anything. -/
def same : ParameterValue → ParameterValue → Bool
  | text left, text right => left == right
  | number left, number right => left.equals right
  | truth left, truth right => left == right
  | date left, date right => left == right
  | bag left, bag right => sameAll left right
  | withoutText left, withoutText right => left == right
  | _, _ => false

/-- Whether two bags have the same names with the same values. -/
def sameAll : Parameters → Parameters → Bool
  | [], [] => true
  | (leftName, left) :: leftRest, (rightName, right) :: rightRest =>
      leftName == rightName && same left right && sameAll leftRest rightRest
  | _, _ => false

end

/-- The value that a path of names leads to from a value. -/
def descend? (value : ParameterValue) : List String → Option ParameterValue
  | [] => some value
  | name :: rest =>
      match value with
      | bag parameters =>
          match parameters.lookup name with
          | some value => descend? value rest
          | none => none
      | _ => none

mutual

/--
The JSON value that stands for a value in keys. A number that is not finite stands as its text, a
date likewise, and what has no text as null.
-/
def toJson : ParameterValue → Json
  | text value => .string value
  | number value =>
      if value.isFinite then .number (.fractional value) else .string value.display
  | truth value => .bool value
  | date value => .string value.text
  | bag parameters => .object (membersToJson parameters)
  | withoutText _ => .null

/-- The members that stand for parameters in keys. -/
def membersToJson : Parameters → List (String × Json)
  | [] => []
  | (name, value) :: rest => (name, toJson value) :: membersToJson rest

end

end ParameterValue

namespace Parameters

/-- The parameters of a JSON object; any other value gives none. -/
def ofJson (json : Json) : Parameters :=
  match ParameterValue.ofJson json with
  | .bag parameters => parameters
  | _ => []

def insert (parameters : Parameters) (name : String) (value : ParameterValue) : Parameters :=
  Keyed.insert name value parameters

/-- The names on a dotted path, without the blanks around each. -/
def pathNames (path : List Char) : List String :=
  (path.splitOn '.').map fun name => String.ofList (Text.trim name)

/-- The value that a dotted path leads to. -/
def lookupPath? (parameters : Parameters) (path : List Char) : Option ParameterValue :=
  (ParameterValue.bag parameters).descend? (pathNames path)

/--
The text that stands for parameters in the keys of remembered results: that of a JSON object, and
none for no parameters.
-/
def fingerprint (parameters : Parameters) : String :=
  if parameters.isEmpty then ""
  else (Json.object (ParameterValue.membersToJson parameters)).render

end Parameters

end LocalizedText
