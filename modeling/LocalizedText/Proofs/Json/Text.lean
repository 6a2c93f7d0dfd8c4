import LocalizedText.Json.Source
import LocalizedText.Proofs.Number.CanonicalText
import LocalizedText.Proofs.Number.IntegerText

/-!
# The text of a JSON value determines it

The first character of a text tells the kind of its value. A string ends at the first quote that is
not escaped, and reading it gives its text back. A number ends before the first punctuation, and its
canonical text determines it. So a text followed by nothing or by punctuation can only be taken
apart in one way.
-/

namespace LocalizedText

namespace JsonSource

/-- The hexadecimal digits of a control character are read as its code. -/
theorem hexCode?_control {code : Nat} (control : code < 0x20) :
    hexCode? '0' '0' (Json.hexDigit (code / 16)) (Json.hexDigit (code % 16)) = some code := by
  revert control
  revert code
  decide

/-- A character is written with a letter, with its code or as it is. -/
theorem escapeChar_cases (character : Char) :
    (∃ letter, Json.escapeChar character = ['\\', letter] ∧
        escaped? letter = some character) ∨
      (character.toNat < 0x20 ∧ Json.escapeChar character =
        ['\\', 'u', '0', '0', Json.hexDigit (character.toNat / 16),
          Json.hexDigit (character.toNat % 16)]) ∨
      (character ≠ '"' ∧ character ≠ '\\' ∧ ¬character.toNat < 0x20 ∧
        Json.escapeChar character = [character]) := by
  unfold Json.escapeChar
  split
  · next quote => exact Or.inl ⟨'"', rfl, by rw [quote]; rfl⟩
  next quote =>
  split
  · next backslash => exact Or.inl ⟨'\\', rfl, by rw [backslash]; rfl⟩
  next backslash =>
  split
  · next backspace => exact Or.inl ⟨'b', rfl, by rw [backspace]; rfl⟩
  split
  · next tab => exact Or.inl ⟨'t', rfl, by rw [tab]; rfl⟩
  split
  · next newline => exact Or.inl ⟨'n', rfl, by rw [newline]; rfl⟩
  split
  · next feed => exact Or.inl ⟨'f', rfl, by rw [feed]; rfl⟩
  split
  · next back => exact Or.inl ⟨'r', rfl, by rw [back]; rfl⟩
  split
  · next control => exact Or.inr (Or.inl ⟨control, rfl⟩)
  · next plain => exact Or.inr (Or.inr ⟨quote, backslash, plain, rfl⟩)

theorem readString?_escapeChar (read : List Char) (character : Char) (rest : List Char) :
    readString? (some read) (Json.escapeChar character ++ rest) =
      readString? (some (character :: read)) rest := by
  rcases escapeChar_cases character with
    ⟨letter, written, escaped⟩ | ⟨control, written⟩ | ⟨quote, backslash, plain, written⟩
  · have different : letter ≠ 'u' := by
      rintro rfl
      cases escaped
    rw [written]
    simp [readString?, escaped, different]
  · have code := hexCode?_control control
    have trailing : isTrailingSurrogate character.toNat = false := by
      simp only [isTrailingSurrogate, Bool.and_eq_false_iff, decide_eq_false_iff_not]
      omega
    have leading : isLeadingSurrogate character.toNat = false := by
      simp only [isLeadingSurrogate, Bool.and_eq_false_iff, decide_eq_false_iff_not]
      omega
    rw [written]
    simp [readString?, code, trailing, leading, Char.ofNat_toNat]
  · rw [written]
    simp [readString?, backslash, plain]

/-- Reading a written text up to its closing quote gives the text. -/
theorem readString?_escaped (characters read rest : List Char) :
    readString? (some read) (characters.flatMap Json.escapeChar ++ '"' :: rest) =
      some (some (String.ofList (read.reverse ++ characters)), rest) := by
  induction characters generalizing read with
  | nil => simp [readString?]
  | cons character characters inductionHypothesis =>
      rw [List.flatMap_cons, List.append_assoc, readString?_escapeChar, inductionHypothesis,
        List.reverse_cons, List.append_assoc, List.singleton_append]

end JsonSource

namespace JsonNumber

/-- A character that may follow a value in a text. -/
def isPunctuation (character : Char) : Bool :=
  character == ',' || character == ']' || character == '\x7d'

theorem render_injective : Function.Injective render := by
  intro left right same
  cases left with
  | integer leftValue =>
      cases right with
      | integer rightValue => rw [IntegerText.toString_injective same]
      | fractional rightValue =>
          rcases rightValue.exists_mark_canonicalText with ⟨mark, member, notDigit, notSign⟩
          change toString leftValue = rightValue.canonicalText at same
          rw [← same] at member
          rcases IntegerText.mem_toString member with digit | sign
          · rw [notDigit] at digit
            cases digit
          · exact absurd sign notSign
  | fractional leftValue =>
      cases right with
      | integer rightValue =>
          rcases leftValue.exists_mark_canonicalText with ⟨mark, member, notDigit, notSign⟩
          change leftValue.canonicalText = toString rightValue at same
          rw [same] at member
          rcases IntegerText.mem_toString member with digit | sign
          · rw [notDigit] at digit
            cases digit
          · exact absurd sign notSign
      | fractional rightValue => rw [Double.canonicalText_injective same]

/-- The characters that the text of a number starts with. -/
def startsNumber (character : Char) : Bool :=
  character.isDigit || character ∈ 'N' :: 'I' :: DoubleText.marks

/-- The text of a number starts like one, and no punctuation stands in it. -/
theorem render_shape (number : JsonNumber) :
    ∃ first rest, number.render.toList = first :: rest ∧ startsNumber first = true ∧
      ∀ character ∈ number.render.toList, isPunctuation character = false := by
  have unpunctuated {text : List Char} (none : text.all (!isPunctuation ·) = true) :
      ∀ character ∈ text, isPunctuation character = false := by
    simpa using none
  have plain {text : List Char} (nonempty : text ≠ [])
      (all : ∀ character ∈ text, character.isDigit = true ∨ character ∈ DoubleText.marks) :
      ∃ first rest, text = first :: rest ∧ startsNumber first = true ∧
        ∀ character ∈ text, isPunctuation character = false := by
    obtain ⟨first, rest, rfl⟩ := List.exists_cons_of_ne_nil nonempty
    refine ⟨first, rest, rfl, ?_, ?_⟩
    · rcases all first (by simp) with digit | mark
      · simp [startsNumber, digit]
      · simp [startsNumber, mark]
    · intro character member
      by_contra punctuation
      simp only [isPunctuation, Bool.not_eq_false, Bool.or_eq_true, beq_iff_eq] at punctuation
      have written := all character member
      rcases punctuation with (rfl | rfl) | rfl
      · exact absurd written (by decide)
      · exact absurd written (by decide)
      · exact absurd written (by decide)
  cases number with
  | integer value =>
      apply plain
      · change (toString value).toList ≠ []
        rw [IntegerText.toList_toString]
        simp [Nat.toDigits_ne_nil]
      · intro character member
        rcases IntegerText.mem_toString member with digit | rfl
        · exact Or.inl digit
        · exact Or.inr (by decide)
  | fractional value =>
      cases value with
      | finite negative magnitude =>
          rcases (Double.finite negative magnitude).exists_mark_canonicalText with ⟨mark, member, -⟩
          apply plain
          · exact List.ne_nil_of_mem member
          · intro character member
            exact Double.mem_canonicalText_finite member
      | infinite negative =>
          cases negative
          · exact ⟨'I', _, rfl, by decide, unpunctuated (by decide)⟩
          · exact ⟨'-', _, rfl, by decide, unpunctuated (by decide)⟩
      | notANumber => exact ⟨'N', _, rfl, by decide, unpunctuated (by decide)⟩

end JsonNumber

namespace Json

/-- The kind of the value that a text starts with. -/
def kindOfStart (character : Char) : String :=
  if character = 'n' then "null"
  else if character = 't' ∨ character = 'f' then "boolean"
  else if character = '"' then "string"
  else if character = '[' then "array"
  else if character = '\x7b' then "object"
  else "number"

theorem kindOfStart_number {character : Char}
    (start : JsonNumber.startsNumber character = true) : kindOfStart character = "number" := by
  unfold kindOfStart
  split_ifs with letter letters quote bracket brace
  · subst letter
    exact absurd start (by decide)
  · rcases letters with rfl | rfl
    · exact absurd start (by decide)
    · exact absurd start (by decide)
  · subst quote
    exact absurd start (by decide)
  · subst bracket
    exact absurd start (by decide)
  · subst brace
    exact absurd start (by decide)
  · rfl

/-- The text goes on with nothing or with punctuation. -/
def EndsValue (rest : List Char) : Prop :=
  ∀ character ∈ rest.head?, JsonNumber.isPunctuation character = true

theorem endsValue_cons {character : Char} (rest : List Char)
    (punctuation : JsonNumber.isPunctuation character = true) : EndsValue (character :: rest) := by
  rintro _ ⟨⟩
  exact punctuation

/-- The first character of a text tells the kind of the value. -/
theorem exists_start_render (json : Json) :
    ∃ first rest, json.render.toList = first :: rest ∧ kindOfStart first = json.kind ∧
      JsonNumber.isPunctuation first = false := by
  cases json with
  | null => exact ⟨'n', _, rfl, rfl, rfl⟩
  | bool value =>
      cases value
      · exact ⟨'f', _, rfl, rfl, rfl⟩
      · exact ⟨'t', _, rfl, rfl, rfl⟩
  | number value =>
      rcases value.render_shape with ⟨first, rest, shape, start, plain⟩
      refine ⟨first, rest, shape, ?_, plain first (by simp [shape])⟩
      exact kindOfStart_number start
  | string value =>
      refine ⟨'"', value.toList.flatMap escapeChar ++ ['"'], ?_, rfl, rfl⟩
      simp [render, renderString]
  | array items =>
      refine ⟨'[', (renderItems items).toList ++ [']'], ?_, rfl, rfl⟩
      simp [render]
  | object members =>
      refine ⟨'\x7b', (renderMembers members).toList ++ ['\x7d'], ?_, rfl, rfl⟩
      simp [render]

theorem kind_eq_of_render {left right : Json} {leftRest rightRest : List Char}
    (same : left.render.toList ++ leftRest = right.render.toList ++ rightRest) :
    left.kind = right.kind := by
  rcases left.exists_start_render with ⟨leftFirst, _, leftShape, leftKind, -⟩
  rcases right.exists_start_render with ⟨rightFirst, _, rightShape, rightKind, -⟩
  rw [leftShape, rightShape, List.cons_append, List.cons_append, List.cons.injEq] at same
  rw [← leftKind, ← rightKind, same.1]

theorem renderString_append {left right : String} {leftRest rightRest : List Char}
    (same : (renderString left).toList ++ leftRest = (renderString right).toList ++ rightRest) :
    left = right ∧ leftRest = rightRest := by
  simp only [renderString, String.toList_ofList, List.cons_append, List.append_assoc,
    List.cons.injEq, true_and] at same
  have read := congrArg (JsonSource.readString? (some [])) same
  simpa [JsonSource.readString?_escaped] using read

theorem number_append {left right : JsonNumber} {leftRest rightRest : List Char}
    (leftEnds : EndsValue leftRest) (rightEnds : EndsValue rightRest)
    (same : left.render.toList ++ leftRest = right.render.toList ++ rightRest) :
    left = right ∧ leftRest = rightRest := by
  rcases left.render_shape with ⟨_, _, -, -, leftPlain⟩
  rcases right.render_shape with ⟨_, _, -, -, rightPlain⟩
  have parts := Text.append_inj_of_stops (fun character => !JsonNumber.isPunctuation character)
    (by simpa using leftPlain) (by simpa using rightPlain)
    (by simpa [EndsValue, Text.Stops] using leftEnds)
    (by simpa [EndsValue, Text.Stops] using rightEnds) same
  exact ⟨JsonNumber.render_injective (String.toList_inj.mp parts.1), parts.2⟩

/-- What follows the text of an item in the text of an array. -/
def itemsTail : List Json → List Char
  | [] => []
  | rest => ',' :: (renderItems rest).toList

theorem renderItems_cons (item : Json) (rest : List Json) :
    (renderItems (item :: rest)).toList = item.render.toList ++ itemsTail rest := by
  cases rest with
  | nil => simp [renderItems, itemsTail]
  | cons next rest => simp [renderItems, itemsTail]

theorem endsValue_itemsTail (items : List Json) (rest : List Char) :
    EndsValue (itemsTail items ++ ']' :: rest) := by
  cases items with
  | nil => exact endsValue_cons _ rfl
  | cons item items => exact endsValue_cons _ rfl

theorem renderItems_of_itemsTail {left right : List Json} {leftRest rightRest : List Char}
    (same : itemsTail left ++ ']' :: leftRest = itemsTail right ++ ']' :: rightRest) :
    (renderItems left).toList ++ ']' :: leftRest =
      (renderItems right).toList ++ ']' :: rightRest := by
  cases left with
  | nil =>
      cases right with
      | nil => simpa [itemsTail] using same
      | cons _ _ => simp [itemsTail] at same
  | cons _ _ =>
      cases right with
      | nil => simp [itemsTail] at same
      | cons _ _ => exact (List.cons.inj same).2

theorem renderItems_cons_ne {item : Json} {items : List Json} {leftRest rightRest : List Char} :
    ']' :: leftRest ≠ (renderItems (item :: items)).toList ++ ']' :: rightRest := by
  intro same
  rcases item.exists_start_render with ⟨first, rest, shape, -, plain⟩
  rw [renderItems_cons, shape] at same
  rw [← (List.cons.inj same).1] at plain
  cases plain

/-- What follows the text of a value in the text of an object. -/
def membersTail : List (String × Json) → List Char
  | [] => []
  | rest => ',' :: (renderMembers rest).toList

theorem renderMembers_cons (name : String) (value : Json) (rest : List (String × Json)) :
    (renderMembers ((name, value) :: rest)).toList =
      (renderString name).toList ++ ':' :: (value.render.toList ++ membersTail rest) := by
  cases rest with
  | nil => simp [renderMembers, membersTail]
  | cons next rest => simp [renderMembers, membersTail]

theorem endsValue_membersTail (members : List (String × Json)) (rest : List Char) :
    EndsValue (membersTail members ++ '\x7d' :: rest) := by
  cases members with
  | nil => exact endsValue_cons _ rfl
  | cons member members => exact endsValue_cons _ rfl

theorem renderMembers_of_membersTail {left right : List (String × Json)}
    {leftRest rightRest : List Char}
    (same : membersTail left ++ '\x7d' :: leftRest = membersTail right ++ '\x7d' :: rightRest) :
    (renderMembers left).toList ++ '\x7d' :: leftRest =
      (renderMembers right).toList ++ '\x7d' :: rightRest := by
  cases left with
  | nil =>
      cases right with
      | nil => simpa [membersTail] using same
      | cons _ _ => simp [membersTail] at same
  | cons _ _ =>
      cases right with
      | nil => simp [membersTail] at same
      | cons _ _ => exact (List.cons.inj same).2

theorem renderMembers_cons_ne {name : String} {value : Json} {members : List (String × Json)}
    {leftRest rightRest : List Char} :
    '\x7d' :: leftRest ≠
      (renderMembers ((name, value) :: members)).toList ++ '\x7d' :: rightRest := by
  intro same
  rw [renderMembers_cons] at same
  simp [renderString] at same

-- What follows the two texts may differ at first, since the items of an array may.
mutual

/-- A text that is followed by nothing or by punctuation is that of one value only. -/
theorem render_append : ∀ (left right : Json) {leftRest rightRest : List Char},
    EndsValue leftRest → EndsValue rightRest →
    left.render.toList ++ leftRest = right.render.toList ++ rightRest →
    left = right ∧ leftRest = rightRest
  | .null => by
      intro right _ _ _ _ same
      have kinds := kind_eq_of_render same
      cases right <;> simp only [kind, String.reduceEq] at kinds
      exact ⟨rfl, List.append_cancel_left same⟩
  | .bool left => by
      intro right _ _ _ _ same
      have kinds := kind_eq_of_render same
      cases right <;> simp only [kind, String.reduceEq] at kinds
      next right =>
        cases left <;> cases right
        · exact ⟨rfl, List.append_cancel_left same⟩
        · simp [render] at same
        · simp [render] at same
        · exact ⟨rfl, List.append_cancel_left same⟩
  | .number left => by
      intro right _ _ leftEnds rightEnds same
      have kinds := kind_eq_of_render same
      cases right <;> simp only [kind, String.reduceEq] at kinds
      simp only [render] at same
      rcases number_append leftEnds rightEnds same with ⟨rfl, rest⟩
      exact ⟨rfl, rest⟩
  | .string left => by
      intro right _ _ _ _ same
      have kinds := kind_eq_of_render same
      cases right <;> simp only [kind, String.reduceEq] at kinds
      simp only [render] at same
      rcases renderString_append same with ⟨rfl, rest⟩
      exact ⟨rfl, rest⟩
  | .array left => by
      intro right _ _ _ _ same
      have kinds := kind_eq_of_render same
      cases right <;> simp only [kind, String.reduceEq] at kinds
      next right =>
        simp only [render, String.toList_append, List.append_assoc] at same
        have inside := List.append_cancel_left same
        rcases renderItems_append left right inside with ⟨rfl, rest⟩
        exact ⟨rfl, rest⟩
  | .object left => by
      intro right _ _ _ _ same
      have kinds := kind_eq_of_render same
      cases right <;> simp only [kind, String.reduceEq] at kinds
      next right =>
        simp only [render, String.toList_append, List.append_assoc] at same
        have inside := List.append_cancel_left same
        rcases renderMembers_append left right inside with ⟨rfl, rest⟩
        exact ⟨rfl, rest⟩

/-- The items of an array end at its closing bracket. -/
theorem renderItems_append : ∀ (left right : List Json) {leftRest rightRest : List Char},
    (renderItems left).toList ++ ']' :: leftRest = (renderItems right).toList ++ ']' :: rightRest →
    left = right ∧ leftRest = rightRest
  | [] => by
      intro right _ _ same
      cases right with
      | nil => exact ⟨rfl, (List.cons.inj same).2⟩
      | cons _ _ => exact absurd same renderItems_cons_ne
  | left :: lefts => by
      intro right _ _ same
      cases right with
      | nil => exact absurd same.symm renderItems_cons_ne
      | cons right rights =>
          rw [renderItems_cons, renderItems_cons, List.append_assoc, List.append_assoc] at same
          rcases render_append left right (endsValue_itemsTail _ _) (endsValue_itemsTail _ _) same
            with ⟨rfl, tails⟩
          rcases renderItems_append lefts rights (renderItems_of_itemsTail tails) with ⟨rfl, rest⟩
          exact ⟨rfl, rest⟩

/-- The members of an object end at its closing brace. -/
theorem renderMembers_append : ∀ (left right : List (String × Json))
    {leftRest rightRest : List Char},
    (renderMembers left).toList ++ '\x7d' :: leftRest =
      (renderMembers right).toList ++ '\x7d' :: rightRest →
    left = right ∧ leftRest = rightRest
  | [] => by
      intro right _ _ same
      cases right with
      | nil => exact ⟨rfl, (List.cons.inj same).2⟩
      | cons _ _ => exact absurd same renderMembers_cons_ne
  | (leftName, left) :: lefts => by
      intro right _ _ same
      cases right with
      | nil => exact absurd same.symm renderMembers_cons_ne
      | cons right rights =>
          rcases right with ⟨rightName, right⟩
          rw [renderMembers_cons, renderMembers_cons, List.append_assoc, List.append_assoc,
            List.cons_append, List.cons_append, List.append_assoc, List.append_assoc] at same
          rcases renderString_append same with ⟨rfl, values⟩
          rcases render_append left right (endsValue_membersTail _ _) (endsValue_membersTail _ _)
            (List.cons.inj values).2 with ⟨rfl, tails⟩
          rcases renderMembers_append lefts rights (renderMembers_of_membersTail tails) with
            ⟨rfl, rest⟩
          exact ⟨rfl, rest⟩

end

/-- A value is determined by its text. -/
theorem render_injective : Function.Injective render := by
  intro left right same
  have whole : left.render.toList ++ [] = right.render.toList ++ [] := by rw [same]
  exact (render_append left right (by simp [EndsValue]) (by simp [EndsValue]) whole).1

end Json

end LocalizedText
