import Mathlib.Data.List.TakeWhile

/-!
# Spans of characters

Readers take characters as long as they have a property. When a text with the property is followed
by one that does not go on with it, the reader takes the former and leaves the latter.
-/

namespace LocalizedText

namespace Text

/-- A text does not start with a character of a property. -/
def Stops (property : Char → Bool) (rest : List Char) : Prop :=
  ∀ character ∈ rest.head?, property character = false

section Spans

variable {property : Char → Bool} {text rest : List Char}

theorem stops_nil : Stops property [] := by
  rintro character ⟨⟩

theorem stops_cons {character : Char} (stop : property character = false) :
    Stops property (character :: rest) := by
  rintro _ ⟨⟩
  exact stop

theorem stops_append (nonempty : text ≠ []) (none : ∀ character ∈ text, property character = false)
    (rest : List Char) : Stops property (text ++ rest) := by
  rcases List.exists_cons_of_ne_nil nonempty with ⟨first, others, rfl⟩
  exact stops_cons (none first (List.mem_cons_self ..))

theorem takeWhile_of_stops (all : ∀ character ∈ text, property character = true)
    (stops : Stops property rest) : (text ++ rest).takeWhile property = text := by
  rw [List.takeWhile_append_of_pos all]
  cases rest with
  | nil => simp
  | cons character rest => simp [stops character rfl]

theorem dropWhile_of_stops (all : ∀ character ∈ text, property character = true)
    (stops : Stops property rest) : (text ++ rest).dropWhile property = rest := by
  rw [List.dropWhile_append_of_pos all]
  cases rest with
  | nil => simp
  | cons character rest => simp [stops character rfl]

/-- A text is taken apart uniquely where a property ends. -/
theorem append_inj_of_stops (property : Char → Bool) {text rest otherText otherRest : List Char}
    (all : ∀ character ∈ text, property character = true)
    (otherAll : ∀ character ∈ otherText, property character = true)
    (stops : Stops property rest) (otherStops : Stops property otherRest)
    (same : text ++ rest = otherText ++ otherRest) : text = otherText ∧ rest = otherRest := by
  have taken := congrArg (List.takeWhile property) same
  rw [takeWhile_of_stops all stops, takeWhile_of_stops otherAll otherStops] at taken
  subst taken
  exact ⟨rfl, List.append_cancel_left same⟩

end Spans

end Text

end LocalizedText
