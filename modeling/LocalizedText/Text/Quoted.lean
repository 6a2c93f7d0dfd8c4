import LocalizedText.Text.Unprintable

/-!
# Quoted text

Error messages and descriptions show a text between double quotes. Quotes, backslashes and the four
named controls are escaped by a letter, every other unprintable character by its code point in
lower-case hexadecimal, and all else stands for itself.
-/

namespace LocalizedText

namespace Text

/-- How one character is written between the quotes. -/
def quoteChar (character : Char) : List Char :=
  if character = '"' then ['\\', '"']
  else if character = '\\' then ['\\', '\\']
  else if character = '\x00' then ['\\', '0']
  else if character = '\t' then ['\\', 't']
  else if character = '\r' then ['\\', 'r']
  else if character = '\n' then ['\\', 'n']
  else if isUnprintable character then
    ['\\', 'u', '\x7b'] ++ Nat.toDigits 16 character.toNat ++ ['\x7d']
  else [character]

/-- The text between double quotes. -/
def quoted (text : String) : String :=
  String.ofList ('"' :: text.toList.flatMap quoteChar ++ ['"'])

end Text

end LocalizedText
