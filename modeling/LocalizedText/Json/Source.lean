import LocalizedText.Json.Numeral

/-!
# JSON as written

Reading a JSON text first gives what is written: members in their order with repetitions, numbers as
numerals, and strings that may turn out to be no text because a surrogate stands alone in them. Only
what a reader then asks for has to be a value: a numeral must be in range, a string must be a text,
and values must not nest too deeply.
-/

namespace LocalizedText

/-- A JSON value as it is written. -/
inductive JsonSource where
  | null
  | bool (value : Bool)
  | number (numeral : JsonNumeral)
  /-- A string, without its text when a surrogate stands alone in it. -/
  | string (text : Option String)
  | array (items : List JsonSource)
  | object (members : List (Option String × JsonSource))

namespace JsonSource

/-- The deepest nesting of arrays and objects in a value. -/
def maxDepth : Nat := 127

mutual

/-- The value of a source that nests at most so deeply. -/
def toJson? (depth : Nat) : JsonSource → Option Json
  | null => some .null
  | bool value => some (.bool value)
  | number numeral => numeral.number?.map .number
  | string text => text.map .string
  | array items =>
      if depth = 0 then none else (itemsToJson? (depth - 1) items).map .array
  | object members =>
      if depth = 0 then none
      else (membersToJson? (depth - 1) members).map fun members => .object (Keyed.ofList members)

/-- The values of the items of an array. -/
def itemsToJson? (depth : Nat) : List JsonSource → Option (List Json)
  | [] => some []
  | item :: rest => do
      let item ← toJson? depth item
      let rest ← itemsToJson? depth rest
      return item :: rest

/-- The members of an object, in the order of the source. -/
def membersToJson? (depth : Nat) :
    List (Option String × JsonSource) → Option (List (String × Json))
  | [] => some []
  | (name, value) :: rest => do
      let name ← name
      let value ← toJson? depth value
      let rest ← membersToJson? depth rest
      return (name, value) :: rest

end

/-- The text after the blanks that may stand between tokens. -/
def skipSpace (input : List Char) : List Char :=
  input.dropWhile fun character =>
    character == ' ' || character == '\n' || character == '\t' || character == '\r'

def hexValue? (character : Char) : Option Nat :=
  if character.isDigit then some (character.toNat - '0'.toNat)
  else if 'a' ≤ character && character ≤ 'f' then some (character.toNat - 'a'.toNat + 10)
  else if 'A' ≤ character && character ≤ 'F' then some (character.toNat - 'A'.toNat + 10)
  else none

def hexCode? (first second third fourth : Char) : Option Nat := do
  let first ← hexValue? first
  let second ← hexValue? second
  let third ← hexValue? third
  let fourth ← hexValue? fourth
  return ((first * 16 + second) * 16 + third) * 16 + fourth

/-- The code is that of the first half of a surrogate pair. -/
def isLeadingSurrogate (code : Nat) : Bool := 0xD800 ≤ code && code ≤ 0xDBFF

/-- The code is that of the second half of a surrogate pair. -/
def isTrailingSurrogate (code : Nat) : Bool := 0xDC00 ≤ code && code ≤ 0xDFFF

/-- The character that a letter after a backslash stands for. -/
def escaped? (letter : Char) : Option Char :=
  [('"', '"'), ('\\', '\\'), ('/', '/'), ('b', '\x08'), ('f', '\x0C'), ('n', '\n'),
    ('r', '\r'), ('t', '\t')].lookup letter

/--
The rest of a string after its opening quote, and what follows its closing quote. The characters
read so far are given in reverse; they are none when a surrogate stood alone.
-/
def readString? (read : Option (List Char)) : List Char → Option (Option String × List Char)
  | [] => none
  | '"' :: rest => some (read.map fun read => String.ofList read.reverse, rest)
  | '\\' :: 'u' :: a :: b :: c :: d :: rest =>
      match hexCode? a b c d with
      | none => none
      | some code =>
          -- Half a pair that stands alone is no fault: the string may be one that nobody asks for.
          if isTrailingSurrogate code then readString? none rest
          else if isLeadingSurrogate code then
            match rest with
            | '\\' :: 'u' :: e :: f :: g :: h :: after =>
                match hexCode? e f g h with
                | none => none
                | some low =>
                    if isTrailingSurrogate low then
                      let point := 0x10000 + (code - 0xD800) * 0x400 + (low - 0xDC00)
                      readString? (read.map (Char.ofNat point :: ·)) after
                    else readString? none ('\\' :: 'u' :: e :: f :: g :: h :: after)
            | rest => readString? none rest
          else readString? (read.map (Char.ofNat code :: ·)) rest
  | '\\' :: letter :: rest =>
      match escaped? letter with
      | some character => readString? (read.map (character :: ·)) rest
      | none => none
  | character :: rest =>
      if character = '\\' ∨ character.toNat < 0x20 then none
      else readString? (read.map (character :: ·)) rest
termination_by input => input.length

/-- The exponent of a number, if it has one, and what follows; `none` for a mark without digits. -/
def readExponent? : List Char → Option (Option Int × List Char)
  | mark :: rest =>
      if mark = 'e' ∨ mark = 'E' then
        let (negative, unsigned) :=
          match rest with
          | '-' :: rest => (true, rest)
          | '+' :: rest => (false, rest)
          | rest => (false, rest)
        let digits := unsigned.takeWhile Char.isDigit
        if digits.isEmpty then none
        else
          let value : Int := DecimalLiteral.digitsValue digits
          some (some (if negative then -value else value), unsigned.dropWhile Char.isDigit)
      else some (none, mark :: rest)
  | [] => some (none, [])

/-- The fraction digits of a number and what follows them; `none` for a point without digits. -/
def readFraction? : List Char → Option (Option (List Char) × List Char)
  | '.' :: rest =>
      let digits := rest.takeWhile Char.isDigit
      if digits.isEmpty then none else some (some digits, rest.dropWhile Char.isDigit)
  | rest => some (none, rest)

/-- A number: no leading zeros, digits on both sides of a point. -/
def readNumber? (input : List Char) : Option (JsonSource × List Char) := do
  let (negative, unsigned) :=
    match input with
    | '-' :: rest => (true, rest)
    | rest => (false, rest)
  let integer := unsigned.takeWhile Char.isDigit
  if integer.isEmpty || (integer.length > 1 && integer.head? == some '0') then none
  else
    let (fraction, rest) ← readFraction? (unsigned.dropWhile Char.isDigit)
    let (exponent, rest) ← readExponent? rest
    return (number { negative, integer, fraction, exponent }, rest)

/-- What follows a word at the start of a text. -/
def afterWord? (word : List Char) (input : List Char) : Option (List Char) :=
  if word.isPrefixOf input then some (input.drop word.length) else none

mutual

/-- A value and what follows it. -/
def readValue? : Nat → List Char → Option (JsonSource × List Char)
  | 0, _ => none
  | fuel + 1, input =>
      match skipSpace input with
      | '\x7b' :: rest =>
          match skipSpace rest with
          | '\x7d' :: rest => some (object [], rest)
          | rest => readMembers? fuel [] rest
      | '[' :: rest =>
          match skipSpace rest with
          | ']' :: rest => some (array [], rest)
          | rest => readItems? fuel [] rest
      | '"' :: rest => (readString? (some []) rest).map fun (text, rest) => (string text, rest)
      | rest =>
          match afterWord? ['n', 'u', 'l', 'l'] rest, afterWord? ['t', 'r', 'u', 'e'] rest,
              afterWord? ['f', 'a', 'l', 's', 'e'] rest with
          | some after, _, _ => some (null, after)
          | none, some after, _ => some (bool true, after)
          | none, none, some after => some (bool false, after)
          | none, none, none => readNumber? rest

/-- The items of an array after the ones read so far, which are given in reverse. -/
def readItems? : Nat → List JsonSource → List Char → Option (JsonSource × List Char)
  | 0, _, _ => none
  | fuel + 1, read, input =>
      match readValue? fuel input with
      | none => none
      | some (item, rest) =>
          match skipSpace rest with
          | ',' :: rest => readItems? fuel (item :: read) rest
          | ']' :: rest => some (array (item :: read).reverse, rest)
          | _ => none

/-- The members of an object after the ones read so far, which are given in reverse. -/
def readMembers? :
    Nat → List (Option String × JsonSource) → List Char → Option (JsonSource × List Char)
  | 0, _, _ => none
  | fuel + 1, read, input =>
      match skipSpace input with
      | '"' :: rest =>
          match readString? (some []) rest with
          | none => none
          | some (name, rest) =>
              match skipSpace rest with
              | ':' :: rest =>
                  match readValue? fuel rest with
                  | none => none
                  | some (value, rest) =>
                      match skipSpace rest with
                      | ',' :: rest => readMembers? fuel ((name, value) :: read) rest
                      | '\x7d' :: rest => some (object ((name, value) :: read).reverse, rest)
                      | _ => none
              | _ => none
      | _ => none

end

/-- The one value that a text consists of. -/
def read? (text : String) : Option JsonSource :=
  let input := text.toList
  -- Of two successive calls at least one takes a character, so this is enough fuel.
  match readValue? (2 * input.length + 2) input with
  | some (source, rest) => if (skipSpace rest).isEmpty then some source else none
  | none => none

end JsonSource

/-- The value that a text denotes. -/
def Json.read? (text : String) : Option Json :=
  JsonSource.read? text >>= JsonSource.toJson? JsonSource.maxDepth

end LocalizedText
