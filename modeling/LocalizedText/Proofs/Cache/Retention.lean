import LocalizedText.Proofs.Cache.RecencyList
import LocalizedText.Proofs.Keyed
import Mathlib.Data.Finset.Card
import Mathlib.Data.List.DropRight

/-!
# What a recency cache retains

Which keys a recency cache holds can be told from the calls alone. A key is touched when it is set,
and when it is got and found. The keys that were ever touched, ordered by when they were touched
last, are a list of which the cache holds the front, as many keys as there is room for. So a key is
still there when fewer other keys than that were touched after it.
-/

namespace LocalizedText

/-- The action takes no key out of the cache, unless there is no room for it. -/
def RecencyAction.KeepsEntries {κ ν : Type} : RecencyAction κ ν → Prop
  | .remove _ | .clear => False
  | .set .. | .get _ | .peek _ | .has _ => True

namespace RecencyCache

variable {κ ν : Type} [DecidableEq κ] [Hashable κ]

/-- The key that an action touches: one that is set, or one that is got and found. -/
def touch? (cache : RecencyCache κ ν) : RecencyAction κ ν → Option κ
  | .set key _ => some key
  | .get key => if (cache.get key).1.isSome then some key else none
  | .peek _ | .has _ | .remove _ | .clear => none

/-- The keys that a sequence of actions touches, one after the other. -/
def touches (cache : RecencyCache κ ν) : List (RecencyAction κ ν) → List κ
  | [] => []
  | action :: rest => (cache.touch? action).toList ++ touches (cache.perform action).2 rest

end RecencyCache

namespace RecencyList

variable {κ ν : Type} [DecidableEq κ]

/-- The keys of a history that starts with the last one, each at its first place. -/
def recents : List κ → List κ
  | [] => []
  | key :: earlier => key :: (recents earlier).erase key

theorem mem_recents {history : List κ} {key : κ} : key ∈ recents history ↔ key ∈ history := by
  induction history with
  | nil => simp [recents]
  | cons first earlier ih =>
      by_cases same : key = first
      · simp [recents, same]
      · simp [recents, same, List.mem_erase_of_ne same, ih]

/-- Before a key stand the keys that were touched after it, each of them once. -/
theorem exists_recents_split {history : List κ} {key : κ} (touched : key ∈ history) :
    ∃ front back, recents history = front ++ key :: back ∧ key ∉ front ∧ front.Nodup ∧
      ∀ other, other ∈ front ↔ other ∈ history.takeWhile (· ≠ key) := by
  induction history with
  | nil => simp at touched
  | cons first earlier ih =>
      by_cases same : first = key
      · exact ⟨[], (recents earlier).erase first, by simp [recents, same], by simp, by simp,
          by simp [same]⟩
      · have touchedBefore : key ∈ earlier := by
          simpa [Ne.symm same] using touched
        rcases ih touchedBefore with ⟨front, back, split, absent, nodup, mem_front⟩
        refine ⟨first :: front.erase first, if first ∈ front then back else back.erase first,
          ?_, ?_, ?_, ?_⟩
        · by_cases present : first ∈ front
          · simp [recents, split, present, List.erase_append_left]
          · simp [recents, split, present, List.erase_append_right, List.erase_of_not_mem,
              Ne.symm same]
        · simp only [List.mem_cons, not_or]
          exact ⟨Ne.symm same, fun member => absent (List.mem_of_mem_erase member)⟩
        · rw [List.nodup_cons]
          exact ⟨nodup.not_mem_erase, nodup.erase first⟩
        · intro other
          by_cases isFirst : other = first
          · simp [isFirst, same]
          · simp [isFirst, same, List.mem_erase_of_ne isFirst, mem_front]

theorem mem_take_recents_iff {history : List κ} {key : κ} {capacity : ℕ} :
    key ∈ (recents history).take capacity ↔
      key ∈ history ∧ (history.takeWhile (· ≠ key)).toFinset.card < capacity := by
  by_cases touched : key ∈ history
  · rcases exists_recents_split touched with ⟨front, back, split, absent, nodup, mem_front⟩
    have count : (history.takeWhile (· ≠ key)).toFinset.card = front.length := by
      rw [← List.toFinset_card_of_nodup nodup]
      congr 1
      ext other
      simp only [List.mem_toFinset, mem_front]
    rw [split, count]
    simp only [touched, true_and]
    constructor
    · intro kept
      by_contra beyond
      rw [List.take_append_of_le_length (not_lt.mp beyond)] at kept
      exact absent (List.mem_of_mem_take kept)
    · intro room
      rw [List.take_append, List.mem_append]
      right
      rcases Nat.exists_eq_add_of_lt room with ⟨more, rfl⟩
      simp [show front.length + more + 1 - front.length = more + 1 by omega]
  · simp only [touched, false_and, iff_false]
    intro kept
    exact touched (mem_recents.mp (List.mem_of_mem_take kept))

/-- A key moves to the front of the first keys as it does to the front of all keys. -/
theorem take_cons_erase_take (key : κ) (keys : List κ) (capacity : ℕ) :
    (key :: (keys.take capacity).erase key).take capacity =
      (key :: keys.erase key).take capacity := by
  cases capacity with
  | zero => rfl
  | succ capacity =>
      simp only [List.take_succ_cons, List.cons.injEq, true_and]
      induction keys generalizing capacity with
      | nil => simp
      | cons first rest ih =>
          by_cases same : first = key
          · simp [same]
          · cases capacity with
            | zero => simp
            | succ capacity => simpa [same] using ih capacity

end RecencyList

namespace RecencyList

variable {κ ν : Type} [DecidableEq κ] {pairs : List (κ × ν)} {key : κ}

theorem map_fst_without (key : κ) (pairs : List (κ × ν)) :
    (without key pairs).map Prod.fst = (pairs.map Prod.fst).erase key := by
  induction pairs with
  | nil => rfl
  | cons first rest ih =>
      by_cases same : first.1 = key
      · simp [without, same]
      · simpa [without, same] using ih

theorem isSome_lookup_iff : (pairs.lookup key).isSome = true ↔ key ∈ pairs.map Prod.fst := by
  rw [Option.isSome_iff_ne_none, ne_eq, Keyed.lookup_eq_none_iff, not_not]

omit [DecidableEq κ] in
/-- Dropping the last of too many is keeping as many as there is room for. -/
theorem dropLast_of_full {capacity : ℕ} (few : pairs.length ≤ capacity + 1) :
    (if capacity < pairs.length then pairs.dropLast else pairs) = pairs.take capacity := by
  split
  · rw [List.dropLast_eq_take]
    congr 1
    omega
  · rw [List.take_of_length_le (by omega)]

end RecencyList

namespace RecencyCache

variable {κ ν : Type} [DecidableEq κ] [Hashable κ] {cache : RecencyCache κ ν} {history : List κ}
  {action : RecencyAction κ ν} {key : κ}

/-- The cache holds the keys of a history that were touched last, which starts with the last one. -/
def Retains (cache : RecencyCache κ ν) (history : List κ) : Prop :=
  ∃ pairs, cache.Holds pairs ∧
    pairs.map Prod.fst = (RecencyList.recents history).take cache.capacity

theorem retains_empty (capacity : ℕ) : (empty capacity : RecencyCache κ ν).Retains [] :=
  ⟨[], holds_empty capacity, by simp [RecencyList.recents]⟩

theorem Retains.contains_iff (retains : cache.Retains history) :
    cache.contains key = true ↔ key ∈ (RecencyList.recents history).take cache.capacity := by
  rcases retains with ⟨pairs, holds, isFront⟩
  rw [holds.contains_eq, RecencyList.isSome_lookup_iff, isFront]

theorem Retains.perform (retains : cache.Retains history) (keeps : action.KeepsEntries) :
    (cache.perform action).2.Retains ((cache.touch? action).toList ++ history) ∧
      (cache.perform action).2.capacity = cache.capacity := by
  rcases retains with ⟨pairs, holds, isFront⟩
  have bounded : pairs.length ≤ cache.capacity := by
    rw [← List.length_map Prod.fst, isFront]
    exact List.length_take_le _ _
  rcases holds.perform bounded action with ⟨-, held, capacity⟩
  refine ⟨⟨_, held, ?_⟩, capacity⟩
  rw [capacity]
  cases action with
  | set key value =>
      have few := length_without_le key pairs
      simp only [RecencyList.perform, touch?, Option.toList_some, List.singleton_append]
      rw [RecencyList.dropLast_of_full (by simp only [List.length_cons]; omega), List.map_take,
        List.map_cons, RecencyList.map_fst_without, isFront, RecencyList.take_cons_erase_take,
        RecencyList.recents]
  | get key =>
      cases found : pairs.lookup key with
      | none => simpa [RecencyList.perform, touch?, holds.get_missing found, found] using isFront
      | some value =>
          have few := length_without_lt found
          have room : (key :: (pairs.map Prod.fst).erase key).length ≤ cache.capacity := by
            rw [← RecencyList.map_fst_without, List.length_cons, List.length_map]
            omega
          simp only [RecencyList.perform, touch?, (holds.get found).1, found, Option.isSome_some,
            if_true, Option.toList_some, List.singleton_append, List.map_cons,
            RecencyList.map_fst_without, RecencyList.recents]
          rw [← RecencyList.take_cons_erase_take, ← isFront, List.take_of_length_le room]
  | peek key => exact isFront
  | has key => exact isFront
  | remove key => exact keeps.elim
  | clear => exact keeps.elim

theorem Retains.after (retains : cache.Retains history) {actions : List (RecencyAction κ ν)}
    (keeps : ∀ action ∈ actions, action.KeepsEntries) :
    (cache.after actions).Retains ((cache.touches actions).reverse ++ history) ∧
      (cache.after actions).capacity = cache.capacity := by
  induction actions generalizing cache history with
  | nil => exact ⟨retains, rfl⟩
  | cons action rest ih =>
      rw [List.forall_mem_cons] at keeps
      rcases retains.perform keeps.1 with ⟨next, capacity⟩
      rcases ih next keeps.2 with ⟨last, room⟩
      have newest : (cache.touch? action).toList.reverse = (cache.touch? action).toList := by
        cases cache.touch? action <;> rfl
      refine ⟨?_, room.trans capacity⟩
      rw [touches, List.reverse_append, newest, List.append_assoc]
      exact last

/-- A key that is got is found if it is one of those that were touched last. -/
theorem Retains.touch?_get (retains : cache.Retains history) (key : κ) :
    cache.touch? (.get key) =
      if key ∈ (RecencyList.recents history).take cache.capacity then some key else none := by
  rcases retains with ⟨pairs, holds, isFront⟩
  have answers : (cache.get key).1.isSome = (pairs.lookup key).isSome := by
    cases found : pairs.lookup key with
    | none => rw [holds.get_missing found]
    | some value => rw [(holds.get found).1]
  rw [touch?]
  apply if_congr _ rfl rfl
  rw [answers, RecencyList.isSome_lookup_iff, isFront]

/-- Only a key that was touched before is got and found. -/
theorem Retains.mem_of_touch? (retains : cache.Retains history)
    (touched : cache.touch? action = some key) :
    key ∈ history ∨ ∃ value, action = .set key value := by
  cases action with
  | set other value =>
      cases touched
      exact .inr ⟨value, rfl⟩
  | get other =>
      left
      rw [retains.touch?_get, Option.ite_none_right_eq_some] at touched
      rcases touched with ⟨kept, ⟨⟩⟩
      exact RecencyList.mem_recents.mp (List.mem_of_mem_take kept)
  | peek | has | remove | clear => cases touched

/-- A key is touched first by being set. -/
theorem Retains.mem_touches (retains : cache.Retains history) {actions : List (RecencyAction κ ν)}
    (keeps : ∀ action ∈ actions, action.KeepsEntries) (touched : key ∈ cache.touches actions) :
    key ∈ history ∨ ∃ value, .set key value ∈ actions := by
  induction actions generalizing cache history with
  | nil => simp [touches] at touched
  | cons action rest ih =>
      rw [List.forall_mem_cons] at keeps
      have now (touchedNow : key ∈ (cache.touch? action).toList) :
          key ∈ history ∨ ∃ value, .set key value ∈ action :: rest := by
        rcases retains.mem_of_touch? (Option.mem_toList.mp touchedNow) with before | ⟨value, rfl⟩
        · exact .inl before
        · exact .inr ⟨value, List.mem_cons_self⟩
      rw [touches, List.mem_append] at touched
      rcases touched with touchedNow | later
      · exact now touchedNow
      · rcases ih (retains.perform keeps.1).1 keeps.2 later with before | ⟨value, isSet⟩
        · rcases List.mem_append.mp before with touchedNow | before
          · exact now touchedNow
          · exact .inl before
        · exact .inr ⟨value, List.mem_cons_of_mem action isSet⟩

theorem touches_append (cache : RecencyCache κ ν) (first later : List (RecencyAction κ ν)) :
    cache.touches (first ++ later) = cache.touches first ++ (cache.after first).touches later := by
  induction first generalizing cache with
  | nil => rfl
  | cons action rest ih =>
      rw [List.cons_append, touches, touches, ih, List.append_assoc]
      rfl

theorem mem_touches_of_set {actions : List (RecencyAction κ ν)} {value : ν}
    (isSet : .set key value ∈ actions) : key ∈ cache.touches actions := by
  induction actions generalizing cache with
  | nil => cases isSet
  | cons action rest ih =>
      rw [touches, List.mem_append]
      rcases List.mem_cons.mp isSet with rfl | later
      · exact .inl (by simp [touch?])
      · exact .inr (ih later)

/--
From the empty cache on, a key is there after any sequence of actions that remove nothing if it was
set and fewer other keys than there is room for were touched after it was touched last.
-/
theorem contains_after_iff (capacity : ℕ) {actions : List (RecencyAction κ ν)}
    (keeps : ∀ action ∈ actions, action.KeepsEntries) (key : κ) :
    ((empty capacity : RecencyCache κ ν).after actions).contains key = true ↔
      (∃ value, .set key value ∈ actions) ∧
        ((touches (empty capacity) actions).rtakeWhile (· ≠ key)).toFinset.card < capacity := by
  rcases (retains_empty capacity).after keeps with ⟨retains, room⟩
  rw [List.append_nil] at retains
  rw [retains.contains_iff, room, RecencyList.mem_take_recents_iff, List.mem_reverse]
  apply and_congr
  · constructor
    · intro touched
      simpa using (retains_empty capacity).mem_touches keeps touched
    · rintro ⟨value, isSet⟩
      exact mem_touches_of_set isSet
  · rw [List.rtakeWhile, List.toFinset_reverse]
    rfl

/-- A key that was got stays when another one is set, and one that was only looked at goes. -/
theorem contains_after_iff_got :
    let actions : List (RecencyAction ℕ ℕ) :=
      [.set 1 10, .set 2 20, .peek 2, .get 1, .peek 2, .set 3 30, .has 2]
    (∀ action ∈ actions, action.KeepsEntries) ∧
      ((empty 2 : RecencyCache ℕ ℕ).after actions).contains 1 = true ∧
      ¬((empty 2 : RecencyCache ℕ ℕ).after actions).contains 2 = true := by
  intro actions
  have keeps : ∀ action ∈ actions, action.KeepsEntries := by
    simp [actions, RecencyAction.KeepsEntries]
  let before : List (RecencyAction ℕ ℕ) := [.set 1 10, .set 2 20, .peek 2]
  have keepsBefore : ∀ action ∈ before, action.KeepsEntries := by
    simp [before, RecencyAction.KeepsEntries]
  rcases (retains_empty 2).after keepsBefore with ⟨retains, room⟩
  have got : ((empty 2).after before).touch? (.get 1) = some 1 := by
    rw [retains.touch?_get, room]
    rfl
  have later : ((empty 2).after before).touches [.get 1, .peek 2, .set 3 30, .has 2] = [1, 3] := by
    rw [touches, got]
    rfl
  have touched : touches (empty 2) actions = [1, 2, 1, 3] := by
    have split : actions = before ++ [.get 1, .peek 2, .set 3 30, .has 2] := rfl
    rw [split, touches_append, later]
    rfl
  refine ⟨keeps, ?_, ?_⟩
  · rw [contains_after_iff 2 keeps 1, touched]
    exact ⟨⟨10, by simp [actions]⟩, by decide +kernel⟩
  · rw [contains_after_iff 2 keeps 2, touched]
    rintro ⟨-, few⟩
    revert few
    decide +kernel

end RecencyCache

end LocalizedText
