import LocalizedText.Parameter.Basic
import LocalizedText.Proofs.Number.DecimalText

/-!
# What can be seen of parameters

Texts see a parameter by its text and by the number it is read as, and the parameters in a bag by
their paths. All of this is determined by the JSON value that stands for a parameter in keys, even
though that value forgets some differences: a number that is not finite has its text read as itself,
and no date is read as a number.
-/

namespace LocalizedText

namespace Text

theorem mem_trim {text : List Char} {character : Char} (member : character ∈ text)
    (printed : isBlank character = false) : character ∈ trim text := by
  have kept {text : List Char} (member : character ∈ text) :
      character ∈ text.dropWhile isBlank := by
    rw [← List.takeWhile_append_dropWhile (p := isBlank) (l := text), List.mem_append] at member
    rcases member with taken | dropped
    · rw [List.mem_takeWhile_imp taken] at printed
      cases printed
    · exact dropped
  unfold trim
  rw [List.mem_reverse]
  apply kept
  rw [List.mem_reverse]
  exact kept member

end Text

namespace Double

theorem colon_mem_readSign {text : List Char} (colon : ':' ∈ text) :
    ':' ∈ (readSign text).2 := by
  unfold readSign
  split
  · exact (List.mem_cons.mp colon).resolve_left (by decide)
  · exact (List.mem_cons.mp colon).resolve_left (by decide)
  · exact colon

theorem readExponent?_of_colon {text : List Char} (colon : ':' ∈ text) :
    readExponent? text = none := by
  have noDigits {digits : List Char} (inside : ':' ∈ digits) : digits.all Char.isDigit = false := by
    rw [List.all_eq_false]
    exact ⟨':', inside, by decide⟩
  cases text with
  | nil => cases colon
  | cons mark rest =>
      unfold readExponent?
      simp only
      split
      · next isMark =>
          have inside : ':' ∈ rest := by
            apply (List.mem_cons.mp colon).resolve_left
            rintro rfl
            exact absurd isMark (by decide)
          split
          · simp [noDigits ((List.mem_cons.mp inside).resolve_left (by decide))]
          · simp [noDigits ((List.mem_cons.mp inside).resolve_left (by decide))]
          · simp [noDigits inside]
      · rfl

theorem readNumeral?_of_colon (negative : Bool) {text : List Char} (colon : ':' ∈ text) :
    readNumeral? negative text = none := by
  have kept {text : List Char} (colon : ':' ∈ text) : ':' ∈ text.dropWhile Char.isDigit := by
    rw [← List.takeWhile_append_dropWhile (p := Char.isDigit) (l := text), List.mem_append] at colon
    rcases colon with taken | dropped
    · exact absurd (List.mem_takeWhile_imp taken) (by decide)
    · exact dropped
  unfold readNumeral?
  simp only
  split
  · next rest point =>
      have inside := kept colon
      rw [point] at inside
      have after := kept ((List.mem_cons.mp inside).resolve_left (by decide))
      rw [readExponent?_of_colon after]
      simp
  · rw [readExponent?_of_colon (kept colon)]
    simp

/-- A text with a colon is no number. -/
theorem read?_of_mem_colon {text : List Char} (colon : ':' ∈ text) : read? text = none := by
  have unsigned := colon_mem_readSign colon
  unfold read? readWith?
  simp only [readNumeral?_of_colon _ unsigned]
  have lower : ':' ∈ (readSign text).2.map Char.toLower := by
    rw [List.mem_map]
    exact ⟨':', unsigned, by decide⟩
  rw [if_neg, if_neg]
  · intro word
    rw [word] at lower
    exact absurd lower (by decide)
  · rintro (word | word)
    · rw [word] at lower
      exact absurd lower (by decide)
    · rw [word] at lower
      exact absurd lower (by decide)

/-- The text of a number that is not finite is read as the number. -/
theorem read?_display {value : Double} (notFinite : value.isFinite = false) :
    read? (Text.trim value.display.toList) = some value := by
  cases value with
  | finite negative magnitude => cases notFinite
  | infinite negative => cases negative <;> decide
  | notANumber => decide

end Double

theorem Timestamp.read?_text (timestamp : Timestamp) :
    Double.read? (Text.trim timestamp.text.toList) = none := by
  apply Double.read?_of_mem_colon
  apply Text.mem_trim _ (by decide)
  simp [Timestamp.text]

namespace Json

/-- The text that the value of a parameter shows, by what stands for it. -/
def shown? : Json → Option String
  | .string text => some text
  | .number value => some value.toDouble.display
  | .bool value => some (if value then "true" else "false")
  | _ => none

/-- The number that the value of a parameter is read as, by what stands for it. -/
def denoted? : Json → Option Double
  | .string text => Double.read? (Text.trim text.toList)
  | .number value => some value.toDouble
  | _ => none

/-- The value that a path of names leads to. -/
def descend? (json : Json) : List String → Option Json
  | [] => some json
  | name :: rest =>
      match json with
      | .object members => (members.lookup name).bind fun json => descend? json rest
      | _ => none

end Json

namespace ParameterValue

theorem display?_eq_shown? (value : ParameterValue) : value.display? = value.toJson.shown? := by
  cases value with
  | number value =>
      unfold toJson
      split
      · rfl
      · rfl
  | text value => rfl
  | truth value => rfl
  | date value => rfl
  | bag parameters => rfl
  | withoutText kind => rfl

theorem toNumber?_eq_denoted? (value : ParameterValue) :
    value.toNumber? = value.toJson.denoted? := by
  cases value with
  | number value =>
      unfold toJson
      split
      · rfl
      · next notFinite =>
          rw [Bool.not_eq_true] at notFinite
          exact (Double.read?_display notFinite).symm
  | date value => exact value.read?_text.symm
  | text value => rfl
  | truth value => rfl
  | bag parameters => rfl
  | withoutText kind => rfl

theorem lookup_membersToJson (parameters : Parameters) (name : String) :
    (membersToJson parameters).lookup name = (parameters.lookup name).map toJson := by
  induction parameters with
  | nil => rfl
  | cons parameter rest inductionHypothesis =>
      rcases parameter with ⟨key, value⟩
      simp only [membersToJson, List.lookup_cons]
      split
      · rfl
      · exact inductionHypothesis

/-- What a path leads to is determined by what stands for the value. -/
theorem descend?_toJson (value : ParameterValue) (path : List String) :
    (value.descend? path).map toJson = value.toJson.descend? path := by
  induction path generalizing value with
  | nil => rfl
  | cons name rest inductionHypothesis =>
      cases value with
      | bag parameters =>
          simp only [descend?, toJson, Json.descend?, lookup_membersToJson]
          cases parameters.lookup name with
          | none => rfl
          | some inner => simp [inductionHypothesis]
      | number value =>
          simp only [descend?, toJson, Option.map_none]
          split
          · rfl
          · rfl
      | text value => rfl
      | truth value => rfl
      | date value => rfl
      | withoutText kind => rfl

end ParameterValue

namespace Parameters

/-- Two bags of parameters show the same texts and are read as the same numbers on every path. -/
def Indistinguishable (left right : Parameters) : Prop :=
  ∀ path : List Char,
    (left.lookupPath? path).bind ParameterValue.display? =
        (right.lookupPath? path).bind ParameterValue.display? ∧
      (left.lookupPath? path).bind ParameterValue.toNumber? =
        (right.lookupPath? path).bind ParameterValue.toNumber?

theorem Indistinguishable.refl (parameters : Parameters) :
    parameters.Indistinguishable parameters :=
  fun _ => ⟨rfl, rfl⟩

/-- Bags for which the same members stand in keys are indistinguishable. -/
theorem indistinguishable_of_membersToJson {left right : Parameters}
    (same : ParameterValue.membersToJson left = ParameterValue.membersToJson right) :
    left.Indistinguishable right := by
  intro path
  have json : (left.lookupPath? path).map ParameterValue.toJson =
      (right.lookupPath? path).map ParameterValue.toJson := by
    unfold lookupPath?
    rw [ParameterValue.descend?_toJson, ParameterValue.descend?_toJson, ParameterValue.toJson,
      ParameterValue.toJson, same]
  have through {β : Type} (observe : ParameterValue → Option β) (view : Json → Option β)
      (factors : ∀ value, observe value = view value.toJson) :
      (left.lookupPath? path).bind observe = (right.lookupPath? path).bind observe := by
    have factored (found : Option ParameterValue) :
        found.bind observe = (found.map ParameterValue.toJson).bind view := by
      cases found with
      | none => rfl
      | some value => exact factors value
    rw [factored, factored, json]
  exact ⟨through _ Json.shown? ParameterValue.display?_eq_shown?,
    through _ Json.denoted? ParameterValue.toNumber?_eq_denoted?⟩

end Parameters

end LocalizedText
