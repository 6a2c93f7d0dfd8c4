import LocalizedText.Locale

/-!
# Locale data

Separators, the place of the currency symbol, the space before the percent sign and the words for
thousands and more, for the languages that have data. Every other language uses the data of English.
-/

namespace LocalizedText

/-- Where the symbol of a currency stands. -/
inductive CurrencyPlacement where
  /-- Before the number, with a space only when the symbol is made of letters. -/
  | before
  /-- Before the number, with a space. -/
  | beforeSpaced
  /-- After the number, with a space. -/
  | afterSpaced
deriving DecidableEq

/--
The words for thousands, millions, billions and trillions. A step without a word is not abbreviated:
the number is written in full.
-/
abbrev CompactWords := List (Option String)

/-- The formatting data of a language. -/
structure LocaleData where
  language : String
  groupSeparator : Char
  decimalSeparator : Char
  /-- The number of digits that the first group needs before digits are grouped at all. -/
  minimumGrouping : Nat
  currency : CurrencyPlacement
  /-- The text between a number and its percent sign. -/
  percentSpace : String
  shortWords : Option CompactWords
  longWords : Option CompactWords
deriving DecidableEq

namespace LocaleData

def noBreakSpace : String := "\u00a0"

def narrowNoBreakSpace : String := "\u202f"

/-- The data of English, which also serves the languages without data. -/
def english : LocaleData where
  language := "en"
  groupSeparator := ','
  decimalSeparator := '.'
  minimumGrouping := 1
  currency := .before
  percentSpace := ""
  shortWords := some [some "K", some "M", some "B", some "T"]
  longWords := some [some " thousand", some " million", some " billion", some " trillion"]

/-- The data of every language that has some. -/
def all : List LocaleData :=
  [english,
    { language := "de"
      groupSeparator := '.'
      decimalSeparator := ','
      minimumGrouping := 1
      currency := .afterSpaced
      percentSpace := noBreakSpace
      shortWords := some [none, some "\u00a0Mio.", some "\u00a0Mrd.", some "\u00a0Bio."]
      longWords := some [some " Tausend", some " Millionen", some " Milliarden",
        some " Billionen"] },
    { language := "fr"
      groupSeparator := '\u202f'
      decimalSeparator := ','
      minimumGrouping := 1
      currency := .afterSpaced
      percentSpace := narrowNoBreakSpace
      shortWords := some [some "\u00a0k", some "\u00a0M", some "\u00a0Md", some "\u00a0Bn"]
      longWords := some [some " mille", some " millions", some " milliards",
        some " billions"] },
    { language := "es"
      groupSeparator := '.'
      decimalSeparator := ','
      minimumGrouping := 2
      currency := .afterSpaced
      percentSpace := noBreakSpace
      shortWords := some [some "\u00a0mil", some "\u00a0M", some "\u00a0mil\u00a0M",
        some "\u00a0B"]
      longWords := some [some " mil", some " millones", some " mil millones",
        some " billones"] },
    { language := "it"
      groupSeparator := '.'
      decimalSeparator := ','
      minimumGrouping := 1
      currency := .afterSpaced
      percentSpace := ""
      shortWords := some [none, some "\u00a0Mln", some "\u00a0Mrd", some "\u00a0Bln"]
      longWords := some [some " mila", some " milioni", some " miliardi",
        some " mila miliardi"] },
    { language := "pt"
      groupSeparator := '.'
      decimalSeparator := ','
      minimumGrouping := 1
      currency := .beforeSpaced
      percentSpace := ""
      shortWords := some [some "\u00a0mil", some "\u00a0mi", some "\u00a0bi", some "\u00a0tri"]
      longWords := some [some " mil", some " milhões", some " bilhões", some " trilhões"] },
    { language := "nl"
      groupSeparator := '.'
      decimalSeparator := ','
      minimumGrouping := 1
      currency := .beforeSpaced
      percentSpace := ""
      shortWords := some [some "K", some "\u00a0mln.", some "\u00a0mld.", some "\u00a0bln."]
      longWords := some [some " duizend", some " miljoen", some " miljard",
        some " biljoen"] },
    { language := "ru"
      groupSeparator := '\u00a0'
      decimalSeparator := ','
      minimumGrouping := 1
      currency := .afterSpaced
      percentSpace := noBreakSpace
      shortWords := some [some "\u00a0тыс.", some "\u00a0млн", some "\u00a0млрд",
        some "\u00a0трлн"]
      longWords := some [some " тысячи", some " миллиона", some " миллиарда",
        some " триллиона"] },
    { language := "pl"
      groupSeparator := '\u00a0'
      decimalSeparator := ','
      minimumGrouping := 2
      currency := .afterSpaced
      percentSpace := ""
      shortWords := some [some "\u00a0tys.", some "\u00a0mln", some "\u00a0mld",
        some "\u00a0bln"]
      longWords := some [some " tysiąca", some " miliona", some " miliarda",
        some " biliona"] },
    { language := "ja"
      groupSeparator := ','
      decimalSeparator := '.'
      minimumGrouping := 1
      currency := .before
      percentSpace := ""
      shortWords := none
      longWords := none },
    { language := "zh"
      groupSeparator := ','
      decimalSeparator := '.'
      minimumGrouping := 1
      currency := .before
      percentSpace := ""
      shortWords := none
      longWords := none }]

/-- The data for a locale tag. -/
def ofLocale (tag : String) : LocaleData :=
  (all.find? (·.language == Locale.language tag)).getD english

end LocaleData

end LocalizedText
