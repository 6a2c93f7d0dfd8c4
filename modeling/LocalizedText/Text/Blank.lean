/-!
# Blank characters

Two notions of blank occur in the library. Tags, paths and settings are trimmed of every character
with the Unicode property `White_Space`; between the tokens of a message clause only the five blank
characters of ASCII are skipped.
-/

namespace LocalizedText

namespace Text

/-- The characters with the Unicode property `White_Space`. -/
def isBlank (character : Char) : Bool :=
  let code := character.toNat
  (0x9 ≤ code && code ≤ 0xD) || code == 0x20 || code == 0x85 || code == 0xA0 || code == 0x1680 ||
    (0x2000 ≤ code && code ≤ 0x200A) || code == 0x2028 || code == 0x2029 || code == 0x202F ||
    code == 0x205F || code == 0x3000

/-- The blank characters of ASCII: space, tab, line feed, form feed and carriage return. -/
def isAsciiBlank (character : Char) : Bool :=
  character == ' ' || character == '\t' || character == '\n' || character == '\x0C' ||
    character == '\r'

/-- Every blank of ASCII is blank. -/
theorem isBlank_of_isAsciiBlank {character : Char} (blank : isAsciiBlank character = true) :
    isBlank character = true := by
  simp only [isAsciiBlank, Bool.or_eq_true, beq_iff_eq] at blank
  rcases blank with (((rfl | rfl) | rfl) | rfl) | rfl <;> decide

/-- The text without the blanks at its two ends. -/
def trim (text : List Char) : List Char :=
  ((text.dropWhile isBlank).reverse.dropWhile isBlank).reverse

/-- The text without the ASCII blanks at its start. -/
def skipBlank (text : List Char) : List Char :=
  text.dropWhile isAsciiBlank

theorem length_skipBlank_le (text : List Char) : (skipBlank text).length ≤ text.length := by
  unfold skipBlank
  induction text with
  | nil => simp
  | cons character rest ih =>
    rw [List.dropWhile_cons]
    split
    · simp only [List.length_cons]
      omega
    · simp

end Text

end LocalizedText
