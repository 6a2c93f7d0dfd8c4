import LocalizedText.Cache.Insertion
import LocalizedText.Proofs.Keyed
import Mathlib.Data.List.DropRight

/-!
# Insertion caches as queues

An insertion cache behaves like the queue of its pairs, the one inserted first in front. The cache
holds a queue when it remembers the order of its keys and its map knows exactly its pairs. A new pair
goes to the end of the queue, of which only as many of the last pairs are kept before as leave room
for it. The value of a key that is there already is replaced in its place.

On a queue an action is what one would write down without a map. Every run of actions on a cache
looks like the run on the queue that it holds.
-/

namespace LocalizedText

inductive InsertionAction (κ ν : Type) where
  | insert (key : κ) (value : ν)
  | get (key : κ)
  | has (key : κ)
  | clear

inductive InsertionAnswer (ν : Type) where
  | value (found : Option ν)
  | presence (present : Bool)
  | done
deriving DecidableEq

/-- What is seen of an insertion cache after an action. -/
structure InsertionObservation (κ ν : Type) where
  answer : InsertionAnswer ν
  size : Nat
  /-- The keys, the one inserted first in front. -/
  keys : List κ
deriving DecidableEq

namespace InsertionQueue

variable {κ ν : Type} [BEq κ]

/-- The pairs with the value of a key replaced, which stays in its place. -/
def replace (key : κ) (value : ν) (pairs : List (κ × ν)) : List (κ × ν) :=
  pairs.map fun pair => if pair.1 == key then (pair.1, value) else pair

/-- The pairs with the first one dropped if there is no room for one more. -/
def makeRoom (capacity : Nat) (pairs : List (κ × ν)) : List (κ × ν) :=
  if pairs.length < capacity then pairs else pairs.tail

/-- The answer to an action and the pairs after it. -/
def perform (capacity : Nat) (pairs : List (κ × ν)) :
    InsertionAction κ ν → InsertionAnswer ν × List (κ × ν)
  | .insert key value =>
      match pairs.lookup key with
      | some previous => (.value (some previous), replace key value pairs)
      | none =>
          (.value none, if capacity = 0 then pairs else makeRoom capacity pairs ++ [(key, value)])
  | .get key => (.value (pairs.lookup key), pairs)
  | .has key => (.presence (pairs.lookup key).isSome, pairs)
  | .clear => (.done, [])

/-- What is seen after each of a sequence of actions. -/
def observe (capacity : Nat) (pairs : List (κ × ν)) :
    List (InsertionAction κ ν) → List (InsertionObservation κ ν)
  | [] => []
  | action :: rest =>
      let (answer, pairs) := perform capacity pairs action
      ⟨answer, pairs.length, pairs.map Prod.fst⟩ :: observe capacity pairs rest

@[simp]
theorem keys_replace (key : κ) (value : ν) (pairs : List (κ × ν)) :
    (replace key value pairs).map Prod.fst = pairs.map Prod.fst := by
  rw [replace, List.map_map]
  apply List.map_congr_left
  intro pair _
  simp only [Function.comp_apply]
  split
  · rfl
  · rfl

@[simp]
theorem length_replace (key : κ) (value : ν) (pairs : List (κ × ν)) :
    (replace key value pairs).length = pairs.length := by
  simp [replace]

theorem lookup_replace [LawfulBEq κ] (key : κ) (value : ν) (pairs : List (κ × ν)) (other : κ) :
    (replace key value pairs).lookup other =
      if key == other then (pairs.lookup other).map fun _ => value else pairs.lookup other := by
  induction pairs with
  | nil => simp [replace]
  | cons pair rest inductionHypothesis =>
      rcases pair with ⟨first, old⟩
      have step : replace key value ((first, old) :: rest) =
          (if first == key then (first, value) else (first, old)) :: replace key value rest := rfl
      rw [step, List.lookup_cons (k := first)]
      by_cases here : other = first
      · subst here
        by_cases same : key = other
        · subst same
          simp
        · have apart : (other == key) = false := by simpa using Ne.symm same
          simp [same, apart]
      · have apart : (other == first) = false := by simpa using here
        rw [apart]
        split
        · rw [List.lookup_cons, apart, inductionHypothesis]
        · rw [List.lookup_cons, apart, inductionHypothesis]

omit [BEq κ] in
/-- Of the pairs with a new one at the end, those inserted last are the ones that there is room for. -/
theorem rtake_concat {capacity : Nat} {pairs : List (κ × ν)} (bounded : pairs.length ≤ capacity)
    (pair : κ × ν) :
    (pairs ++ [pair]).rtake capacity =
      if capacity = 0 then pairs else makeRoom capacity pairs ++ [pair] := by
  cases capacity with
  | zero =>
      have nothing : pairs = [] := List.eq_nil_of_length_eq_zero (Nat.le_zero.mp bounded)
      simp [nothing]
  | succ spare =>
      rw [List.rtake_concat_succ, if_neg (Nat.succ_ne_zero spare), makeRoom, List.rtake]
      split
      · next room =>
          have nothing : pairs.length - spare = 0 := by omega
          rw [nothing, List.drop_zero]
      · next full =>
          have one : pairs.length - spare = 1 := by omega
          rw [one, List.drop_one]

/-- No action on a queue makes it longer than the capacity. -/
theorem length_perform_le {capacity : Nat} {pairs : List (κ × ν)}
    (bounded : pairs.length ≤ capacity) (action : InsertionAction κ ν) :
    (perform capacity pairs action).2.length ≤ capacity := by
  cases action with
  | insert key value =>
      simp only [perform]
      split
      · rwa [length_replace]
      · rw [← rtake_concat bounded, List.rtake, List.length_drop]
        omega
  | get key => exact bounded
  | has key => exact bounded
  | clear => exact Nat.zero_le capacity

end InsertionQueue

namespace InsertionCache

section Actions

variable {κ ν : Type} [BEq κ] [Hashable κ]

def perform (cache : InsertionCache κ ν) :
    InsertionAction κ ν → InsertionAnswer ν × InsertionCache κ ν
  | .insert key value =>
      let (previous, cache) := cache.insert key value
      (.value previous, cache)
  | .get key => (.value (cache.get? key), cache)
  | .has key => (.presence (cache.contains key), cache)
  | .clear => (.done, cache.clear)

/-- What is seen after each of a sequence of actions. -/
def observe (cache : InsertionCache κ ν) :
    List (InsertionAction κ ν) → List (InsertionObservation κ ν)
  | [] => []
  | action :: rest =>
      let (answer, cache) := cache.perform action
      ⟨answer, cache.size, cache.order⟩ :: cache.observe rest

def run (cache : InsertionCache κ ν) (actions : List (InsertionAction κ ν)) : InsertionCache κ ν :=
  actions.foldl (fun cache action => (cache.perform action).2) cache

end Actions

section Maps

variable {κ ν : Type} [BEq κ] [Hashable κ]

/-- A map knows exactly the pairs of a list with distinct keys. -/
structure Knows (entries : Std.HashMap κ ν) (pairs : List (κ × ν)) : Prop where
  lookup : ∀ key, entries[key]? = pairs.lookup key
  size : entries.size = pairs.length

variable [LawfulBEq κ] {entries : Std.HashMap κ ν} {pairs : List (κ × ν)} {key : κ} {value : ν}

theorem Knows.mem_iff (knows : Knows entries pairs) : key ∈ entries ↔ key ∈ pairs.map Prod.fst := by
  rw [← not_iff_not, ← Keyed.lookup_eq_none_iff, ← knows.lookup,
    ← Std.HashMap.isSome_getElem?_iff_mem]
  simp

theorem Knows.erase_first (knows : Knows entries ((key, value) :: pairs))
    (new : key ∉ pairs.map Prod.fst) : Knows (entries.erase key) pairs where
  lookup := by
    intro other
    rw [Std.HashMap.getElem?_erase]
    by_cases same : key = other
    · subst same
      simp [Keyed.lookup_eq_none_iff.mpr new]
    · have different : (other == key) = false := by simpa using Ne.symm same
      simp [same, knows.lookup, List.lookup_cons, different]
  size := by
    have present : key ∈ entries := knows.mem_iff.mpr (by simp)
    simp [Std.HashMap.size_erase, present, knows.size]

/-- Erasing the first keys leaves the pairs behind them. -/
theorem Knows.erase_front (knows : Knows entries pairs) (distinct : (pairs.map Prod.fst).Nodup)
    (count : Nat) :
    Knows (((pairs.map Prod.fst).take count).foldl (·.erase ·) entries) (pairs.drop count) := by
  induction pairs generalizing entries count with
  | nil => simpa using knows
  | cons pair rest inductionHypothesis =>
      rcases List.nodup_cons.mp distinct with ⟨new, restDistinct⟩
      cases count with
      | zero => simpa using knows
      | succ count => exact inductionHypothesis (knows.erase_first new) restDistinct count

theorem Knows.insert_last (knows : Knows entries pairs) (new : key ∉ pairs.map Prod.fst)
    (value : ν) : Knows (entries.insert key value) (pairs ++ [(key, value)]) where
  lookup := by
    intro other
    rw [Std.HashMap.getElem?_insert, List.lookup_append, knows.lookup]
    by_cases same : key = other
    · subst same
      simp [Keyed.lookup_eq_none_iff.mpr new]
    · have different : (other == key) = false := by simpa using Ne.symm same
      simp [same, List.lookup_cons, different]
  size := by
    have absent : key ∉ entries := fun present => new (knows.mem_iff.mp present)
    simp [Std.HashMap.size_insert, absent, knows.size]

theorem Knows.insert_known (knows : Knows entries pairs) (known : key ∈ entries) (value : ν) :
    Knows (entries.insert key value) (InsertionQueue.replace key value pairs) where
  lookup := by
    intro other
    rw [Std.HashMap.getElem?_insert, InsertionQueue.lookup_replace, ← knows.lookup]
    split
    · next same =>
        rw [← eq_of_beq same, Std.HashMap.getElem?_eq_some_getElem known, Option.map_some]
    · rfl
  size := by
    rw [Std.HashMap.size_insert, if_pos known, knows.size, InsertionQueue.length_replace]

end Maps

variable {κ ν : Type} [BEq κ] [Hashable κ]

/-- A cache holds a queue of pairs, the one inserted first in front. -/
structure Holds (cache : InsertionCache κ ν) (pairs : List (κ × ν)) : Prop where
  order : cache.order = pairs.map Prod.fst
  distinct : (pairs.map Prod.fst).Nodup
  knows : Knows cache.entries pairs

variable [LawfulBEq κ] {cache : InsertionCache κ ν} {pairs : List (κ × ν)} {key : κ}

omit [LawfulBEq κ] in
theorem holds_empty (capacity : Nat) : (empty capacity : InsertionCache κ ν).Holds [] where
  order := rfl
  distinct := List.nodup_nil
  knows := ⟨by simp [empty], by simp [empty]⟩

omit [LawfulBEq κ] in
theorem Holds.size_eq (holds : cache.Holds pairs) : cache.size = cache.order.length := by
  rw [size, holds.knows.size, holds.order, List.length_map]

/-- The keys in the queue are those that have a value. -/
theorem Holds.mem_order_iff (holds : cache.Holds pairs) :
    key ∈ cache.order ↔ ∃ value, cache.get? key = some value := by
  rw [holds.order, ← holds.knows.mem_iff, ← Std.HashMap.isSome_getElem?_iff_mem,
    Option.isSome_iff_exists]
  rfl

/-- Making room leaves the pairs inserted last, one fewer than fit in. -/
theorem Holds.makeRoom (holds : cache.Holds pairs) {spare : Nat}
    (capacity : cache.capacity = spare + 1) : cache.makeRoom.Holds (pairs.rtake spare) := by
  have surplus : (pairs.map Prod.fst).length + 1 - cache.capacity = pairs.length - spare := by
    rw [capacity, List.length_map]
    omega
  unfold InsertionCache.makeRoom
  rw [holds.order, surplus]
  refine ⟨(List.map_drop ..).symm, ?_, ?_⟩
  · exact holds.distinct.sublist ((List.drop_sublist _ _).map _)
  · exact holds.knows.erase_front holds.distinct _

/-- A new pair goes to the end, and the pairs that there is room for stay, counted from there. -/
theorem Holds.insert_new (holds : cache.Holds pairs) (bounded : pairs.length ≤ cache.capacity)
    (new : pairs.lookup key = none) (value : ν) :
    (cache.insert key value).2.Holds ((pairs ++ [(key, value)]).rtake cache.capacity) := by
  have unknown : cache.entries[key]? = none := by rw [holds.knows.lookup, new]
  unfold InsertionCache.insert
  rw [unknown]
  cases capacity : cache.capacity with
  | zero =>
      have nothing : pairs = [] := by
        apply List.eq_nil_of_length_eq_zero
        omega
      subst nothing
      simpa using holds
  | succ spare =>
      have room := holds.makeRoom capacity
      have absent : key ∉ (pairs.rtake spare).map Prod.fst := by
        intro member
        rw [Keyed.lookup_eq_none_iff] at new
        exact new (((List.drop_sublist _ _).map _).subset member)
      rw [List.rtake_concat_succ, if_neg (Nat.succ_ne_zero spare)]
      refine ⟨?_, ?_, room.knows.insert_last absent value⟩
      · simp [room.order]
      · rw [List.map_append, List.nodup_append]
        refine ⟨room.distinct, by simp, ?_⟩
        rintro other isOther _ isNew rfl
        simp only [List.map_cons, List.map_nil, List.mem_singleton] at isNew
        exact absent (isNew ▸ isOther)

omit [LawfulBEq κ] in
@[simp]
theorem capacity_insert (key : κ) (value : ν) :
    (cache.insert key value).2.capacity = cache.capacity := by
  unfold InsertionCache.insert
  split
  · rfl
  · split
    · rfl
    · rfl

/-- The value of a key that is there already is replaced in its place. -/
theorem Holds.insert_known (holds : cache.Holds pairs) {previous : ν}
    (known : pairs.lookup key = some previous) (value : ν) :
    (cache.insert key value).2.Holds (InsertionQueue.replace key value pairs) := by
  have found : cache.entries[key]? = some previous := by rw [holds.knows.lookup, known]
  have member : key ∈ cache.entries := by
    rw [← Std.HashMap.isSome_getElem?_iff_mem, found]
    rfl
  unfold InsertionCache.insert
  rw [found]
  refine ⟨?_, ?_, holds.knows.insert_known member value⟩
  · rw [InsertionQueue.keys_replace]
    exact holds.order
  · rw [InsertionQueue.keys_replace]
    exact holds.distinct

omit [LawfulBEq κ] in
/-- An insertion answers with the value that the key had. -/
theorem insert_fst (key : κ) (value : ν) : (cache.insert key value).1 = cache.get? key := by
  unfold InsertionCache.insert get?
  split
  · next found => exact found.symm
  · next missing =>
      rw [missing]
      split
      · rfl
      · rfl

omit [LawfulBEq κ] in
theorem Holds.get?_eq (holds : cache.Holds pairs) (key : κ) :
    cache.get? key = pairs.lookup key :=
  holds.knows.lookup key

theorem Holds.contains_eq (holds : cache.Holds pairs) (key : κ) :
    cache.contains key = (pairs.lookup key).isSome := by
  rw [contains, ← Std.HashMap.isSome_getElem?_eq_contains, holds.knows.lookup]

/-- An action on a cache has the answer and the effect of the action on the queue that it holds. -/
theorem Holds.perform (holds : cache.Holds pairs) (bounded : pairs.length ≤ cache.capacity)
    (action : InsertionAction κ ν) :
    (cache.perform action).1 = (InsertionQueue.perform cache.capacity pairs action).1 ∧
      (cache.perform action).2.Holds (InsertionQueue.perform cache.capacity pairs action).2 ∧
      (cache.perform action).2.capacity = cache.capacity := by
  cases action with
  | insert key value =>
      simp only [InsertionCache.perform, InsertionQueue.perform, insert_fst, holds.get?_eq,
        capacity_insert]
      cases known : pairs.lookup key with
      | some previous => exact ⟨rfl, holds.insert_known known value, trivial⟩
      | none =>
          have held := holds.insert_new bounded known value
          rw [InsertionQueue.rtake_concat bounded] at held
          exact ⟨rfl, held, trivial⟩
  | get key => exact ⟨congrArg InsertionAnswer.value (holds.get?_eq key), holds, rfl⟩
  | has key => exact ⟨congrArg InsertionAnswer.presence (holds.contains_eq key), holds, rfl⟩
  | clear => exact ⟨rfl, holds_empty cache.capacity, rfl⟩

/--
A whole run on a cache looks like the run on the queue that it holds, and the cache still holds a
queue that is not too long.
-/
theorem Holds.run (holds : cache.Holds pairs) (bounded : pairs.length ≤ cache.capacity)
    (actions : List (InsertionAction κ ν)) :
    cache.observe actions = InsertionQueue.observe cache.capacity pairs actions ∧
      ∃ left, (cache.run actions).Holds left ∧ left.length ≤ cache.capacity := by
  induction actions generalizing cache pairs with
  | nil => exact ⟨rfl, pairs, holds, bounded⟩
  | cons action rest inductionHypothesis =>
      rcases holds.perform bounded action with ⟨answer, held, capacity⟩
      have still := InsertionQueue.length_perform_le bounded action
      rcases inductionHypothesis held (by rwa [capacity]) with ⟨following, left⟩
      rw [capacity] at following left
      refine ⟨?_, left⟩
      simp only [InsertionCache.observe, InsertionQueue.observe]
      rw [following, answer, held.size_eq, held.order, List.length_map]

/--
From the empty cache on, every run of actions is answered like on the queue of pairs, with the same
size and the same order of keys after every action. After any run the map knows exactly the keys of
the order, each of which stands there once, and they are no more than the capacity.
-/
theorem observes_queue {κ ν : Type} [DecidableEq κ] [Hashable κ] (capacity : Nat)
    (actions : List (InsertionAction κ ν)) :
    let cache := (empty capacity : InsertionCache κ ν).run actions
    (empty capacity : InsertionCache κ ν).observe actions =
        InsertionQueue.observe capacity [] actions ∧
      (∀ key, key ∈ cache.entries ↔ key ∈ cache.order) ∧ cache.order.Nodup ∧
      cache.order.length ≤ capacity := by
  intro cache
  have start : (empty capacity : InsertionCache κ ν).Holds [] := holds_empty capacity
  rcases start.run (Nat.zero_le _) actions with ⟨observed, pairs, holds, bounded⟩
  have order : cache.order = pairs.map Prod.fst := holds.order
  refine ⟨observed, ?_, ?_, ?_⟩
  · intro key
    rw [order]
    exact holds.knows.mem_iff
  · rw [order]
    exact holds.distinct
  · rw [order, List.length_map]
    exact bounded

end InsertionCache

end LocalizedText
