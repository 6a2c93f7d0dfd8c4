import LocalizedText.Keyed
import LocalizedText.Number.Text

/-!
# JSON values

Values have the members of every object in ascending order of their names, each name once. A value
has one compact text, in which a number that is no integer always shows a fraction or an exponent.
-/

namespace LocalizedText

/-- A JSON number: an integer of at most 64 bits, or a double. -/
inductive JsonNumber where
  | integer (value : Int)
  | fractional (value : Double)
deriving DecidableEq

inductive Json where
  | null
  | bool (value : Bool)
  | number (value : JsonNumber)
  | string (value : String)
  | array (items : List Json)
  | object (members : List (String × Json))

instance : Inhabited Json := ⟨.null⟩

def JsonNumber.toDouble : JsonNumber → Double
  | integer value => Double.ofInt value
  | fractional value => value

def JsonNumber.render : JsonNumber → String
  | integer value => toString value
  | fractional value => value.canonicalText

namespace Json

/-- The kind of a value, in the words of messages. -/
def kind : Json → String
  | null => "null"
  | bool _ => "boolean"
  | number _ => "number"
  | string _ => "string"
  | array _ => "array"
  | object _ => "object"

def hexDigit (value : Nat) : Char :=
  if value < 10 then Char.ofNat ('0'.toNat + value) else Char.ofNat ('a'.toNat + (value - 10))

/-- How a character is written in a JSON string. -/
def escapeChar (character : Char) : List Char :=
  if character = '"' then ['\\', '"']
  else if character = '\\' then ['\\', '\\']
  else if character = '\x08' then ['\\', 'b']
  else if character = '\t' then ['\\', 't']
  else if character = '\n' then ['\\', 'n']
  else if character = '\x0C' then ['\\', 'f']
  else if character = '\r' then ['\\', 'r']
  else if character.toNat < 0x20 then
    ['\\', 'u', '0', '0', hexDigit (character.toNat / 16), hexDigit (character.toNat % 16)]
  else [character]

/-- The text of a JSON string. -/
def renderString (text : String) : String :=
  String.ofList ('"' :: text.toList.flatMap escapeChar ++ ['"'])

mutual

/-- The compact text of a value. -/
def render : Json → String
  | null => "null"
  | bool value => if value then "true" else "false"
  | number value => value.render
  | string value => renderString value
  | array items => "[" ++ renderItems items ++ "]"
  | object members => "\x7b" ++ renderMembers members ++ "\x7d"

/-- The texts of the items of an array, separated by commas. -/
def renderItems : List Json → String
  | [] => ""
  | [item] => render item
  | item :: rest => render item ++ "," ++ renderItems rest

/-- The texts of the members of an object, separated by commas. -/
def renderMembers : List (String × Json) → String
  | [] => ""
  | [(name, value)] => renderString name ++ ":" ++ render value
  | (name, value) :: rest =>
      renderString name ++ ":" ++ render value ++ "," ++ renderMembers rest

end

end Json

end LocalizedText
