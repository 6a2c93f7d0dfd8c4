import LocalizedText.Plural.Rule
import LocalizedText.Proofs.Number.IntegerPart
import LocalizedText.Proofs.Number.Sign
import LocalizedText.Proofs.Text.Span

/-!
# The table of plural categories

The categories of a language are given by a table. A row has conditions for some categories and one
category for all numbers that meet no condition; the order of the conditions does not matter, as no
two of them are met by one number. The row is that of the language that a tag names, and the number
is the integer below a count without its sign.
-/

namespace LocalizedText

namespace Locale

/--
A tag names a language when it starts with the name of the language, in whatever case and with
blanks around it, and then ends or goes on from a separator.
-/
def Names (tag language : String) : Prop :=
  ∃ before name after rest : List Char,
    tag.toList = before ++ (name ++ after) ++ rest ∧
      (∀ character ∈ before ++ after, Text.isBlank character = true) ∧
      (∀ character ∈ before ++ (name ++ after), isSeparator character = false) ∧
      Text.Stops Text.isBlank name ∧ Text.Stops Text.isBlank name.reverse ∧
      Text.Stops (!isSeparator ·) rest ∧ language.toList = name.map Char.toLower

end Locale

namespace Text

theorem stops_append_of_stops {property : Char → Bool} {text rest : List Char} (nonempty : text ≠ [])
    (stops : Stops property text) : Stops property (text ++ rest) := by
  rcases List.exists_cons_of_ne_nil nonempty with ⟨first, others, rfl⟩
  exact stops

theorem Stops.of_append {property : Char → Bool} {text rest : List Char}
    (stops : Stops property (text ++ rest)) : Stops property text := by
  cases text with
  | nil => exact stops_nil
  | cons first others => exact stops

theorem stops_dropWhile (property : Char → Bool) (text : List Char) :
    Stops property (text.dropWhile property) := by
  intro character isFirst
  have stop := List.head?_dropWhile_not property text
  rw [isFirst] at stop
  exact stop

/-- What has no blank at its ends is left when the blanks around it are trimmed. -/
theorem trim_append {before name after : List Char}
    (blank : ∀ character ∈ before ++ after, isBlank character = true)
    (start : Stops isBlank name) (ending : Stops isBlank name.reverse) :
    trim (before ++ (name ++ after)) = name := by
  rw [List.forall_mem_append] at blank
  rcases blank with ⟨blankBefore, blankAfter⟩
  by_cases empty : name = []
  · subst empty
    have all : (before ++ after).dropWhile isBlank = [] := by
      simpa [or_imp, forall_and] using ⟨blankBefore, blankAfter⟩
    simp [trim, all]
  · have blankAfter' : ∀ character ∈ after.reverse, isBlank character = true := by
      simpa using blankAfter
    rw [trim, dropWhile_of_stops blankBefore (stops_append_of_stops empty start),
      List.reverse_append, dropWhile_of_stops blankAfter' ending, List.reverse_reverse]

end Text

namespace Locale

theorem names_iff {tag language : String} : Names tag language ↔ Locale.language tag = language := by
  constructor
  · rintro ⟨before, name, after, rest, isTag, blank, inside, start, ending, stops, isLanguage⟩
    have front : tag.toList.takeWhile (!isSeparator ·) = before ++ (name ++ after) := by
      rw [isTag]
      apply Text.takeWhile_of_stops _ stops
      simpa using inside
    rw [Locale.language, front, Text.trim_append blank start ending, ← isLanguage,
      String.ofList_toList]
  · rintro rfl
    generalize isFront : tag.toList.takeWhile (!isSeparator ·) = front
    have apart : ∀ character ∈ front, isSeparator character = false := by
      intro character member
      rw [← isFront] at member
      simpa using List.mem_takeWhile_imp member
    generalize isMiddle : front.dropWhile Text.isBlank = middle
    have back : Text.trim front ++ (middle.reverse.takeWhile Text.isBlank).reverse = middle := by
      rw [Text.trim, isMiddle, ← List.reverse_append, List.takeWhile_append_dropWhile,
        List.reverse_reverse]
    have split : front.takeWhile Text.isBlank ++
        (Text.trim front ++ (middle.reverse.takeWhile Text.isBlank).reverse) = front := by
      rw [back, ← isMiddle, List.takeWhile_append_dropWhile]
    refine ⟨front.takeWhile Text.isBlank, Text.trim front,
      (middle.reverse.takeWhile Text.isBlank).reverse, tag.toList.dropWhile (!isSeparator ·),
      ?_, ?_, ?_, ?_, ?_, Text.stops_dropWhile _ _, ?_⟩
    · rw [split, ← isFront, List.takeWhile_append_dropWhile]
    · intro character member
      simp only [List.mem_append, List.mem_reverse] at member
      rcases member with member | member
      · exact List.mem_takeWhile_imp member
      · exact List.mem_takeWhile_imp member
    · rwa [split]
    · have start := Text.stops_dropWhile Text.isBlank front
      rw [isMiddle, ← back] at start
      exact start.of_append
    · rw [Text.trim, List.reverse_reverse]
      exact Text.stops_dropWhile _ _
    · rw [Locale.language, isFront, String.toList_ofList]

end Locale

/-- A row of the table: conditions for some categories, and the category of all other numbers. -/
structure PluralRow where
  conditions : List (PluralCategory × (ℕ → Prop))
  otherwise : PluralCategory

namespace PluralRow

/-- The row gives a number the category. -/
def Gives (row : PluralRow) (number : ℕ) (category : PluralCategory) : Prop :=
  (∃ condition, (category, condition) ∈ row.conditions ∧ condition number) ∨
    category = row.otherwise ∧ ∀ entry ∈ row.conditions, ¬entry.2 number

/-- No number meets the conditions for two categories. -/
def IsExclusive (row : PluralRow) : Prop :=
  ∀ first ∈ row.conditions, ∀ second ∈ row.conditions, ∀ number,
    first.2 number → second.2 number → first.1 = second.1

/-- The numbers that Slavic languages count as few. -/
def IsFew (number : ℕ) : Prop :=
  number % 10 ∈ Set.Icc 2 4 ∧ number % 100 ∉ Set.Icc 12 14

def english : PluralRow where
  conditions := [(.one, fun number => number = 1)]
  otherwise := .other

def french : PluralRow where
  conditions := [(.one, fun number => number = 0 ∨ number = 1)]
  otherwise := .other

def arabic : PluralRow where
  conditions :=
    [(.zero, fun number => number = 0), (.one, fun number => number = 1),
      (.two, fun number => number = 2), (.few, fun number => number % 100 ∈ Set.Icc 3 10),
      (.many, fun number => 11 ≤ number % 100)]
  otherwise := .other

def russian : PluralRow where
  conditions :=
    [(.one, fun number => number % 10 = 1 ∧ number % 100 ≠ 11), (.few, IsFew)]
  otherwise := .many

def polish : PluralRow where
  conditions := [(.one, fun number => number = 1), (.few, IsFew)]
  otherwise := .many

def uniform : PluralRow where
  conditions := []
  otherwise := .other

/-- The languages of the table with their rows. -/
def table : List (List String × PluralRow) :=
  [(["en", "es", "de"], english), (["fr"], french), (["ar"], arabic), (["ru"], russian),
    (["pl"], polish), (["zh", "ja"], uniform)]

/-- The row of a language; languages that are not in the table have the English one. -/
def ofLanguage (language : String) : PluralRow :=
  ((table.find? (·.1.contains language)).map Prod.snd).getD english

section Rows

variable {row : PluralRow} {number : ℕ} {category second : PluralCategory}

theorem Gives.unique (exclusive : row.IsExclusive) (gives : row.Gives number category)
    (givesSecond : row.Gives number second) : category = second := by
  rcases gives with ⟨condition, listed, meets⟩ | ⟨rfl, none⟩
  · rcases givesSecond with ⟨condition', listed', meets'⟩ | ⟨-, none⟩
    · exact exclusive _ listed _ listed' number meets meets'
    · exact absurd meets (none _ listed)
  · rcases givesSecond with ⟨condition', listed', meets'⟩ | ⟨rfl, -⟩
    · exact absurd meets' (none _ listed')
    · rfl

/-- Every language has the row that its rule is for. -/
theorem ofLanguage_cases (language : String) :
    (PluralRule.ofLanguage language, ofLanguage language) ∈
      [(PluralRule.english, english), (.french, french), (.arabic, arabic), (.russian, russian),
        (.polish, polish), (.uniform, uniform)] := by
  simp only [ofLanguage, table, List.find?]
  unfold PluralRule.ofLanguage
  split
  · subst language
    simp
  split
  · subst language
    simp
  split
  · subst language
    simp
  split
  · subst language
    simp
  split
  · next isUniform => rcases isUniform with rfl | rfl <;> simp
  · simp_all
    split <;> rfl

theorem isExclusive_ofLanguage (language : String) : (ofLanguage language).IsExclusive := by
  have cases := ofLanguage_cases language
  generalize ofLanguage language = row at cases
  simp only [List.mem_cons, Prod.mk.injEq, List.not_mem_nil, or_false] at cases
  rcases cases with ⟨-, rfl⟩ | ⟨-, rfl⟩ | ⟨-, rfl⟩ | ⟨-, rfl⟩ | ⟨-, rfl⟩ | ⟨-, rfl⟩
  · simp [IsExclusive, english]
  · simp [IsExclusive, french]
  · simp [IsExclusive, arabic]
    grind
  · simp [IsExclusive, russian, IsFew]
    grind
  · simp [IsExclusive, polish, IsFew]
    omega
  · simp [IsExclusive, uniform]

/-- The rule of a language gives each number the category of its row. -/
theorem gives_categorize (language : String) (number : ℕ) :
    (ofLanguage language).Gives number ((PluralRule.ofLanguage language).categorize number) := by
  have cases := ofLanguage_cases language
  generalize ofLanguage language = row at cases
  generalize PluralRule.ofLanguage language = rule at cases
  simp only [List.mem_cons, Prod.mk.injEq, List.not_mem_nil, or_false] at cases
  rcases cases with ⟨rfl, rfl⟩ | ⟨rfl, rfl⟩ | ⟨rfl, rfl⟩ | ⟨rfl, rfl⟩ | ⟨rfl, rfl⟩ | ⟨rfl, rfl⟩
  · simp only [PluralRule.categorize]
    split_ifs <;> simp_all [Gives, english]
  · simp only [PluralRule.categorize]
    split_ifs <;> simp [Gives, french] <;> omega
  · simp only [PluralRule.categorize]
    split_ifs <;> simp_all [Gives, arabic]
  · simp only [PluralRule.categorize, PluralRule.isSlavicFew]
    split_ifs <;> simp_all [Gives, russian, IsFew]
    omega
  · simp only [PluralRule.categorize, PluralRule.isSlavicFew]
    split_ifs <;> simp_all [Gives, polish, IsFew]
    omega
  · simp [Gives, uniform, PluralRule.categorize]

end Rows

theorem gives_iff {language : String} {number : ℕ} {category : PluralCategory} :
    (ofLanguage language).Gives number category ↔
      (PluralRule.ofLanguage language).categorize number = category := by
  have gives := gives_categorize language number
  constructor
  · exact gives.unique (isExclusive_ofLanguage language)
  · rintro rfl
    exact gives

end PluralRow

namespace PluralCount

/-- The number of a count: its floor without the sign, at most the greatest of 64 bits. -/
def counted (count : Double) : ℕ :=
  if count.isFinite then min ⌊count.number⌋.natAbs (2 ^ 64 - 1) else 0

theorem normalize_eq_counted (count : Double) : normalize count = counted count := by
  cases count with
  | finite negative magnitude =>
      simp [normalize, counted, Double.isFinite, Double.natAbs_floor_number, greatest]
  | infinite negative => rfl
  | notANumber => rfl

variable {count : Double} {whole : ℕ} {fraction : ℚ}

theorem counted_of_number (finite : count.isFinite = true)
    (isNumber : count.number = whole ∨ count.number = -whole) :
    counted count = min whole (2 ^ 64 - 1) := by
  rcases isNumber with isNumber | isNumber
  · simp [counted, finite, isNumber]
  · have floor : ⌊-(whole : ℚ)⌋ = -(whole : ℤ) := by
      rw [Int.floor_eq_iff]
      push_cast
      constructor <;> linarith
    simp [counted, finite, isNumber, floor]

theorem counted_of_fraction (finite : count.isFinite = true)
    (isNumber : count.number = whole + fraction) (least : 0 ≤ fraction) (most : fraction < 1) :
    counted count = min whole (2 ^ 64 - 1) := by
  have floor : ⌊(whole : ℚ) + fraction⌋ = whole := by
    rw [Int.floor_eq_iff]
    push_cast
    constructor <;> linarith
  simp [counted, finite, isNumber, floor]

theorem counted_of_negative (finite : count.isFinite = true)
    (isNumber : count.number = -(whole + fraction)) (least : 0 < fraction) (most : fraction < 1) :
    counted count = min (whole + 1) (2 ^ 64 - 1) := by
  have floor : ⌊-((whole : ℚ) + fraction)⌋ = -(whole + 1 : ℤ) := by
    rw [Int.floor_eq_iff]
    push_cast
    constructor <;> linarith
  have abs : (-(whole + 1 : ℤ)).natAbs = whole + 1 := by omega
  simp only [counted, finite, isNumber, floor, abs, if_true]

end PluralCount

namespace Double

variable {whole : ℕ} {fraction : ℚ}

theorem number_opposite (value : Double) : value.opposite.number = -value.number := by
  cases value with
  | finite negative magnitude => cases negative <;> simp [opposite, number]
  | infinite | notANumber => simp [opposite, number]

theorem number_ofNat (representable : IsRepresentable (whole * unitsPerOne)) :
    (ofNat whole).isFinite = true ∧ (ofNat whole).number = whole := by
  rw [ofNat_of_isRepresentable representable, number_mul_unitsPerOne]
  simp [isFinite]

/-- The integer below a double is a double, and so is the one above if it is another one. -/
theorem isRepresentable_floor {value : Double} (finite : value.isFinite = true)
    (isNumber : value.number = whole + fraction) (least : 0 ≤ fraction) (most : fraction < 1) :
    IsRepresentable (whole * unitsPerOne) ∧
      (0 < fraction → IsRepresentable ((whole + 1) * unitsPerOne)) := by
  rcases exists_finite finite with ⟨negative, magnitude, rfl⟩
  have nonneg : (0 : ℚ) ≤ whole + fraction := add_nonneg whole.cast_nonneg least
  have isValue : magnitude.value = whole + fraction := by
    rw [value_eq_abs_number negative, isNumber, abs_of_nonneg nonneg]
  have isWhole : magnitude.integerPart = whole := by
    have below := magnitude.integerPart_le_value
    have above := magnitude.value_lt_integerPart_succ
    rw [isValue] at below above
    have notMore : (magnitude.integerPart : ℚ) < whole + 1 := by linarith
    have notLess : (whole : ℚ) < magnitude.integerPart + 1 := by linarith
    norm_cast at notMore notLess
    omega
  subst isWhole
  refine ⟨magnitude.isRepresentable_integerPart, ?_⟩
  intro more
  apply isRepresentable_of_le (Magnitude.integerPart_lt_of_not_isIntegral _)
  by_contra isIntegral
  rw [Bool.not_eq_false] at isIntegral
  rw [Magnitude.value_of_isIntegral isIntegral] at isValue
  linarith

end Double

/-- From three on, these rules look at the last two digits of a number only. -/
theorem PluralRule.categorize_add_hundred {language : String} (listed : language ∈ ["ar", "ru", "pl"])
    {number : ℕ} (large : 3 ≤ number) :
    (ofLanguage language).categorize (number + 100) = (ofLanguage language).categorize number := by
  have few : isSlavicFew (number + 100) = isSlavicFew number := by
    have tens : (number + 100) % 10 = number % 10 := by omega
    simp only [isSlavicFew, tens, Nat.add_mod_right]
  simp only [List.mem_cons, List.not_mem_nil, or_false] at listed
  rcases listed with rfl | rfl | rfl
  · have notZero : number ≠ 0 := by omega
    have notOne : number ≠ 1 := by omega
    have notTwo : number ≠ 2 := by omega
    simp [ofLanguage, categorize, notZero, notOne, notTwo]
  · have tens : (number + 100) % 10 = number % 10 := by omega
    simp [ofLanguage, categorize, few, tens]
  · have notOne : number ≠ 1 := by omega
    simp [ofLanguage, categorize, few, notOne]

/--
The category of a count is the one that the table gives to its number, by the row of the language
that the tag names. So a fraction behind a natural number makes no difference, unless the count is
negative, which makes it one of the next number. In Arabic, Russian and Polish it is enough to know
the last two digits of a number from three on.
-/
theorem PluralRule.select_by_table (tag : String) :
    (∀ count category, select tag count = category ↔
        ∃ language, Locale.Names tag language ∧
          (PluralRow.ofLanguage language).Gives (PluralCount.counted count) category) ∧
      (∀ (count : Double) (whole : ℕ) (fraction : ℚ), count.isFinite = true →
        count.number = whole + fraction → 0 ≤ fraction → fraction < 1 →
          ((Double.ofNat whole).number = whole ∧
            select tag count = select tag (Double.ofNat whole)) ∧
          (fraction = 0 → select tag count.opposite = select tag (Double.ofNat whole)) ∧
          (0 < fraction → (Double.ofNat (whole + 1)).number = whole + 1 ∧
            select tag count.opposite = select tag (Double.ofNat (whole + 1)))) ∧
      ∀ language ∈ ["ar", "ru", "pl"], Locale.Names tag language → ∀ number, 3 ≤ number →
        (ofLocale tag).categorize (number + 100) = (ofLocale tag).categorize number := by
  refine ⟨?_, ?_, ?_⟩
  · intro count category
    simp only [Locale.names_iff, exists_eq_left', PluralRow.gives_iff]
    rw [select, ofLocale, PluralCount.normalize_eq_counted]
  · have same {first second : Double}
        (counted : PluralCount.counted first = PluralCount.counted second) :
        select tag first = select tag second := by
      simp only [select, PluralCount.normalize_eq_counted, counted]
    intro count whole fraction finite isNumber least most
    rcases Double.isRepresentable_floor finite isNumber least most with ⟨own, next⟩
    have isWhole := Double.number_ofNat own
    have opposite := count.number_opposite
    rw [isNumber] at opposite
    refine ⟨⟨isWhole.2, ?_⟩, ?_, ?_⟩
    · apply same
      rw [PluralCount.counted_of_fraction finite isNumber least most,
        PluralCount.counted_of_number isWhole.1 (.inl isWhole.2)]
    · rintro rfl
      apply same
      have isOpposite : count.opposite.number = -whole := by simpa using opposite
      rw [PluralCount.counted_of_number (by simpa using finite) (.inr isOpposite),
        PluralCount.counted_of_number isWhole.1 (.inl isWhole.2)]
    · intro more
      have isNext := Double.number_ofNat (next more)
      refine ⟨by simpa using isNext.2, ?_⟩
      apply same
      rw [PluralCount.counted_of_negative (by simpa using finite) opposite more most,
        PluralCount.counted_of_number isNext.1 (.inl isNext.2)]
  · intro language listed names number large
    rw [Locale.names_iff] at names
    rw [ofLocale, names]
    exact categorize_add_hundred listed large

/-- Two and a half in an Arabic locale is two, and without two and a half it is three. -/
theorem PluralRule.select_by_table_half :
    let count := Double.finite false ⟨2 * unitsPerOne + 2 ^ 1073, by decide +kernel⟩
    count.isFinite = true ∧ count.number = (2 : ℕ) + 1 / 2 ∧ Locale.Names " Ar_EG" "ar" ∧
      select " Ar_EG" count = .two ∧ select " Ar_EG" count = select " Ar_EG" (Double.ofNat 2) ∧
      select " Ar_EG" count.opposite = select " Ar_EG" (Double.ofNat 3) ∧
      (ofLocale " Ar_EG").categorize 203 = (ofLocale " Ar_EG").categorize 103 := by
  intro count
  have isNumber : count.number = (2 : ℕ) + 1 / 2 := by decide +kernel
  have names : Locale.Names " Ar_EG" "ar" := Locale.names_iff.mpr (by decide +kernel)
  rcases select_by_table " Ar_EG" with ⟨gives, fractions, hundreds⟩
  rcases fractions count 2 (1 / 2) rfl isNumber (by norm_num) (by norm_num) with
    ⟨⟨-, positive⟩, -, negative⟩
  refine ⟨rfl, isNumber, names, (gives count .two).mpr ⟨"ar", names, ?_⟩, positive,
    (negative (by norm_num)).2, hundreds "ar" (by decide) names 103 (by decide)⟩
  rw [PluralRow.gives_iff]
  decide +kernel

end LocalizedText
