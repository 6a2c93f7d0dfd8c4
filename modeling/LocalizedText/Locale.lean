import LocalizedText.Text.Blank

/-!
# Locale tags

Only the language of a tag decides which rules and data apply: the part before the first hyphen or
underscore, without surrounding blanks, in lower case.
-/

namespace LocalizedText

namespace Locale

/-- Whether a character ends the language of a tag. -/
def isSeparator (character : Char) : Bool :=
  character == '-' || character == '_'

/-- The language of a locale tag. -/
def language (tag : String) : String :=
  String.ofList
    ((Text.trim (tag.toList.takeWhile (!isSeparator ·))).map Char.toLower)

/-- The languages that mark ordinals with a raised letter. -/
def romanceLanguages : List String :=
  ["es", "fr", "it", "pt", "ro", "ca", "gl"]

/-- Whether the tag names a Romance language. -/
def isRomance (tag : String) : Bool :=
  romanceLanguages.contains (language tag)

end Locale

end LocalizedText
