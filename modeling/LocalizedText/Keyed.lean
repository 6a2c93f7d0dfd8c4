/-!
# Lists sorted by key

Dictionaries, parameter bags and the branches of messages are kept as lists of pairs in ascending
order of their keys, each key once. Looking a key up is `List.lookup`; inserting keeps the order.
-/

namespace LocalizedText

namespace Keyed

variable {κ α : Type} [LT κ] [DecidableLT κ] [DecidableEq κ]

/-- The keys stand in strictly ascending order. -/
def IsSorted (pairs : List (κ × α)) : Prop :=
  pairs.Pairwise fun first second => first.1 < second.1

/-- The list with a key's value set. -/
def insert (key : κ) (value : α) : List (κ × α) → List (κ × α)
  | [] => [(key, value)]
  | pair :: rest =>
      if key < pair.1 then (key, value) :: pair :: rest
      else if key = pair.1 then (key, value) :: rest
      else pair :: insert key value rest

/-- The sorted list of pairs given in any order; of several values of a key the last one stays. -/
def ofList (pairs : List (κ × α)) : List (κ × α) :=
  pairs.foldl (fun sorted pair => insert pair.1 pair.2 sorted) []

omit [LT κ] [DecidableLT κ] in
theorem lookup_cons_of_ne {key : κ} {pair : κ × α} (different : key ≠ pair.1)
    (rest : List (κ × α)) : (pair :: rest).lookup key = rest.lookup key := by
  obtain ⟨first, value⟩ := pair
  rw [List.lookup_cons]
  simp [show (key == first) = false by simpa using different]

theorem lookup_insert_self (key : κ) (value : α) (pairs : List (κ × α)) :
    (insert key value pairs).lookup key = some value := by
  induction pairs with
  | nil => simp [insert]
  | cons pair rest ih =>
    unfold insert
    split
    · simp
    · split
      · simp
      · next different => rw [lookup_cons_of_ne different, ih]

theorem lookup_insert_of_ne {key other : κ} (different : other ≠ key) (value : α)
    (pairs : List (κ × α)) : (insert key value pairs).lookup other = pairs.lookup other := by
  induction pairs with
  | nil => rw [insert, lookup_cons_of_ne different]
  | cons pair rest ih =>
    unfold insert
    split
    · rw [lookup_cons_of_ne different]
    · split
      · next same =>
        rw [lookup_cons_of_ne different,
          lookup_cons_of_ne fun equal => different (equal.trans same.symm)]
      · by_cases here : other = pair.1
        · obtain ⟨first, old⟩ := pair
          simp [here]
        · rw [lookup_cons_of_ne here, lookup_cons_of_ne here, ih]

end Keyed

end LocalizedText
