import LocalizedText.Proofs.Cache.RecencyLinks

/-!
# Recency caches as lists

A recency cache behaves like the list of its pairs, the most recently used one first. On the list a
key that is set, or got and found, moves to the front, the last pair is dropped when there are more
than the capacity allows, and all else leaves the order alone. The cache holds a list when its links
go through positions with these pairs and its index knows exactly these positions.
-/

namespace LocalizedText

inductive RecencyAction (κ ν : Type) where
  | set (key : κ) (value : ν)
  | get (key : κ)
  | peek (key : κ)
  | has (key : κ)
  | remove (key : κ)
  | clear

inductive RecencyAnswer (ν : Type) where
  | value (found : Option ν)
  | presence (present : Bool)
  | done
deriving DecidableEq

/-- What is seen of a recency cache after an action. -/
structure RecencyObservation (κ ν : Type) where
  answer : RecencyAnswer ν
  size : Nat
  /-- The keys, the most recently used one first. -/
  keys : List κ
deriving DecidableEq

namespace RecencyList

variable {κ ν : Type} [BEq κ]

/-- The pairs without the one of a key. -/
def without (key : κ) (pairs : List (κ × ν)) : List (κ × ν) :=
  pairs.eraseP (·.1 == key)

/-- The answer to an action and the pairs after it. -/
def perform (capacity : Nat) (pairs : List (κ × ν)) :
    RecencyAction κ ν → RecencyAnswer ν × List (κ × ν)
  | .set key value =>
      let moved := (key, value) :: without key pairs
      (.value (pairs.lookup key), if capacity < moved.length then moved.dropLast else moved)
  | .get key =>
      match pairs.lookup key with
      | some value => (.value (some value), (key, value) :: without key pairs)
      | none => (.value none, pairs)
  | .peek key => (.value (pairs.lookup key), pairs)
  | .has key => (.presence (pairs.lookup key).isSome, pairs)
  | .remove key => (.value (pairs.lookup key), without key pairs)
  | .clear => (.done, [])

/-- What is seen after each of a sequence of actions. -/
def observe (capacity : Nat) (pairs : List (κ × ν)) :
    List (RecencyAction κ ν) → List (RecencyObservation κ ν)
  | [] => []
  | action :: rest =>
      let (answer, pairs) := perform capacity pairs action
      ⟨answer, pairs.length, pairs.map Prod.fst⟩ :: observe capacity pairs rest

end RecencyList

namespace RecencyCache

section Actions

variable {κ ν : Type} [BEq κ] [Hashable κ]

def perform (cache : RecencyCache κ ν) :
    RecencyAction κ ν → RecencyAnswer ν × RecencyCache κ ν
  | .set key value =>
      let (previous, cache) := cache.set key value
      (.value previous, cache)
  | .get key =>
      let (found, cache) := cache.get key
      (.value found, cache)
  | .peek key => (.value (cache.peek? key), cache)
  | .has key => (.presence (cache.contains key), cache)
  | .remove key =>
      let (found, cache) := cache.remove key
      (.value found, cache)
  | .clear => (.done, cache.clear)

def after (cache : RecencyCache κ ν) (actions : List (RecencyAction κ ν)) : RecencyCache κ ν :=
  actions.foldl (fun cache action => (cache.perform action).2) cache

/-- What is seen after each of a sequence of actions. -/
def observe (cache : RecencyCache κ ν) :
    List (RecencyAction κ ν) → List (RecencyObservation κ ν)
  | [] => []
  | action :: rest =>
      let (answer, cache) := cache.perform action
      ⟨answer, cache.size, cache.keys⟩ :: cache.observe rest

/-- The links go through all entries, and the index knows the position of every key. -/
structure IsConsistent (cache : RecencyCache κ ν) (order : List Nat) : Prop
    extends cache.IsLinked order where
  whole : ∀ position < cache.slots.size, position ∈ order
  indexed : ∀ key position, cache.index[key]? = some position ↔
    ∃ value, cache.entryAt position = some (key, value)

/-- The cache holds the pairs, the most recently used one first. -/
def Holds (cache : RecencyCache κ ν) (pairs : List (κ × ν)) : Prop :=
  ∃ order, cache.IsConsistent order ∧ order.filterMap cache.entryAt = pairs

end Actions

section Entries

variable {κ ν : Type} [BEq κ] [Hashable κ] {cache : RecencyCache κ ν} {order : List Nat}

theorem exists_entryAt {position : Nat} (inside : position < cache.slots.size) :
    ∃ pair, cache.entryAt position = some pair := by
  simp [entryAt, inside]

theorem lt_size_of_entryAt {position : Nat} {pair : κ × ν}
    (found : cache.entryAt position = some pair) : position < cache.slots.size := by
  rcases Option.map_eq_some_iff.mp found with ⟨slot, present, _⟩
  exact (Array.getElem?_eq_some_iff.mp present).1

theorem value_of_entryAt {position : Nat} {key : κ} {value : ν}
    (found : cache.entryAt position = some (key, value)) :
    cache.slots[position]?.map RecencySlot.value = some value := by
  rcases Option.map_eq_some_iff.mp found with ⟨slot, present, pair⟩
  cases pair
  simp [present]

theorem IsConsistent.perm_range (consistent : cache.IsConsistent order) :
    order.Perm (List.range cache.slots.size) := by
  rw [List.perm_ext_iff_of_nodup consistent.nodup List.nodup_range]
  intro position
  rw [List.mem_range]
  exact ⟨consistent.inside position, consistent.whole position⟩

theorem IsConsistent.size_eq (consistent : cache.IsConsistent order) :
    cache.size = order.length := by
  simpa [size] using consistent.perm_range.length_eq.symm

/-- Walking along the older neighbours visits the rest of the order. -/
theorem IsLinked.entriesFrom_eq {newer older : List Nat} (linked : cache.IsLinked (newer ++ older))
    {bound : Nat} (enough : older.length ≤ bound) :
    cache.entriesFrom bound older.head? = older.filterMap cache.entryAt := by
  induction older generalizing newer bound with
  | nil => cases bound <;> rfl
  | cons position older ih =>
      cases bound with
      | zero => simp at enough
      | succ bound =>
          rcases linked.exists_slot with ⟨slot, found, _, olderEq⟩
          have further : cache.IsLinked (newer ++ [position] ++ older) := by simpa using linked
          have rest := ih further (Nat.le_of_succ_le_succ enough)
          simp [entriesFrom, entryAt, found, olderEq, rest]

/-- Walking through a cache for long enough lists what it holds. -/
theorem Holds.entriesFrom_eq {pairs : List (κ × ν)} (holds : cache.Holds pairs) {bound : Nat}
    (enough : cache.size ≤ bound) : cache.entriesFrom bound cache.newest = pairs := by
  rcases holds with ⟨order, consistent, rfl⟩
  rw [consistent.newest_eq]
  rw [consistent.size_eq] at enough
  have linked : cache.IsLinked ([] ++ order) := consistent.toIsLinked
  exact linked.entriesFrom_eq enough

theorem Holds.toList_eq {pairs : List (κ × ν)} (holds : cache.Holds pairs) :
    cache.toList = pairs :=
  holds.entriesFrom_eq (Nat.le_refl _)

theorem Holds.size_eq {pairs : List (κ × ν)} (holds : cache.Holds pairs) :
    cache.size = pairs.length := by
  rcases holds with ⟨order, consistent, rfl⟩
  rw [consistent.size_eq, List.length_filterMap_eq_countP, eq_comm, List.countP_eq_length]
  intro position member
  rcases exists_entryAt (consistent.inside position member) with ⟨pair, found⟩
  simp [found]

end Entries

section Frames

variable {κ ν : Type} [BEq κ] [Hashable κ] (cache : RecencyCache κ ν) (position other : Nat)

@[simp]
theorem entryAt_unlink : (cache.unlink position).entryAt other = cache.entryAt other := by
  unfold unlink
  split <;> simp

@[simp]
theorem index_unlink : (cache.unlink position).index = cache.index := by
  unfold unlink
  split <;> simp

@[simp]
theorem size_unlink : (cache.unlink position).slots.size = cache.slots.size := by
  unfold unlink
  split <;> simp

@[simp]
theorem capacity_unlink : (cache.unlink position).capacity = cache.capacity := by
  unfold unlink
  split <;> simp

@[simp]
theorem entryAt_linkNewest : (cache.linkNewest position).entryAt other = cache.entryAt other := by
  simp [linkNewest_eq]

@[simp]
theorem index_linkNewest : (cache.linkNewest position).index = cache.index := by
  simp [linkNewest_eq]

@[simp]
theorem size_linkNewest : (cache.linkNewest position).slots.size = cache.slots.size := by
  simp [linkNewest_eq]

@[simp]
theorem capacity_linkNewest : (cache.linkNewest position).capacity = cache.capacity := by
  simp [linkNewest_eq]

@[simp]
theorem entryAt_promote : (cache.promote position).entryAt other = cache.entryAt other := by
  unfold promote
  split <;> simp

@[simp]
theorem index_promote : (cache.promote position).index = cache.index := by
  unfold promote
  split <;> simp

@[simp]
theorem size_promote : (cache.promote position).slots.size = cache.slots.size := by
  unfold promote
  split <;> simp

@[simp]
theorem capacity_promote : (cache.promote position).capacity = cache.capacity := by
  unfold promote
  split <;> simp

@[simp]
theorem entryAt_relink : (cache.relink position).entryAt other = cache.entryAt other := by
  unfold relink
  split
  · rfl
  · exact (entryAt_linkNewer _ _ _ _).trans (entryAt_linkOlder _ _ _ _)

@[simp]
theorem capacity_relink : (cache.relink position).capacity = cache.capacity := by
  unfold relink
  split
  · rfl
  · exact (capacity_linkNewer _ _ _).trans (capacity_linkOlder _ _ _)

@[simp]
theorem capacity_removeAt : (cache.removeAt position).capacity = cache.capacity := by
  unfold removeAt
  split
  · rfl
  · simp only
    split
    · exact capacity_unlink cache position
    · split
      · exact capacity_unlink cache position
      · exact (capacity_relink _ position).trans (capacity_unlink cache position)

@[simp]
theorem capacity_evict : cache.evict.capacity = cache.capacity := by
  unfold evict
  split <;> simp

@[simp]
theorem capacity_push (key : κ) (value : ν) :
    (cache.push key value).capacity = cache.capacity := by
  simp [push]

@[simp]
theorem capacity_get (key : κ) : (cache.get key).2.capacity = cache.capacity := by
  unfold RecencyCache.get
  split <;> simp

@[simp]
theorem capacity_set (key : κ) (value : ν) :
    (cache.set key value).2.capacity = cache.capacity := by
  unfold RecencyCache.set
  split
  · simp
  · simp only
    split <;> simp

@[simp]
theorem capacity_remove (key : κ) : (cache.remove key).2.capacity = cache.capacity := by
  unfold RecencyCache.remove
  split <;> simp

end Frames

section Keys

variable {κ ν : Type} [BEq κ] [Hashable κ] {cache : RecencyCache κ ν} {order : List Nat}

theorem holds_empty (capacity : Nat) : (empty capacity : RecencyCache κ ν).Holds [] := by
  refine ⟨[], ⟨⟨?_, List.nodup_nil, by simp⟩, by simp [empty], ?_⟩, rfl⟩
  · simp [circle, placesFrom, Adjacent, olderOf, newerOf, empty]
  · intro key position
    simp [empty, entryAt]

/-- A known key has a position, and no newer entry has the same key. -/
theorem IsConsistent.split {key : κ} {position : Nat} (consistent : cache.IsConsistent order)
    (known : cache.index[key]? = some position) :
    ∃ newer older value, order = newer ++ position :: older ∧
      cache.entryAt position = some (key, value) ∧
      ∀ pair ∈ newer.filterMap cache.entryAt, pair.1 ≠ key := by
  rcases (consistent.indexed key position).mp known with ⟨value, found⟩
  have member := consistent.whole position (lt_size_of_entryAt found)
  rcases List.append_of_mem member with ⟨newer, older, rfl⟩
  refine ⟨newer, older, value, rfl, found, ?_⟩
  rintro ⟨otherKey, otherValue⟩ pair_mem rfl
  rcases List.mem_filterMap.mp pair_mem with ⟨other, other_mem, otherFound⟩
  have again := (consistent.indexed otherKey other).mpr ⟨otherValue, otherFound⟩
  rw [known] at again
  cases again
  have nodup := consistent.nodup
  rw [List.nodup_append] at nodup
  exact nodup.2.2 position other_mem position List.mem_cons_self rfl

theorem IsConsistent.ne_of_unknown {key : κ} (consistent : cache.IsConsistent order)
    (unknown : cache.index[key]? = none) {pair : κ × ν}
    (member : pair ∈ order.filterMap cache.entryAt) : pair.1 ≠ key := by
  rintro rfl
  rcases List.mem_filterMap.mp member with ⟨position, _, found⟩
  have known := (consistent.indexed pair.1 position).mpr ⟨pair.2, found⟩
  rw [unknown] at known
  cases known

end Keys

section Lists

variable {κ ν : Type} [BEq κ] [LawfulBEq κ] {key : κ} {value : ν} {newer older : List (κ × ν)}

theorem lookup_eq_none_of_ne {pairs : List (κ × ν)} (absent : ∀ pair ∈ pairs, pair.1 ≠ key) :
    pairs.lookup key = none := by
  rw [List.lookup_eq_none_iff]
  intro pair member
  simpa using (absent pair member).symm

theorem lookup_split (absent : ∀ pair ∈ newer, pair.1 ≠ key) :
    (newer ++ (key, value) :: older).lookup key = some value := by
  rw [List.lookup_append, lookup_eq_none_of_ne absent]
  simp

theorem without_split (absent : ∀ pair ∈ newer, pair.1 ≠ key) :
    RecencyList.without key (newer ++ (key, value) :: older) = newer ++ older := by
  rw [RecencyList.without, List.eraseP_append_right]
  · simp
  · simpa using absent

theorem without_eq_self {pairs : List (κ × ν)} (absent : ∀ pair ∈ pairs, pair.1 ≠ key) :
    RecencyList.without key pairs = pairs := by
  apply List.eraseP_of_forall_not
  simpa using absent

end Lists

section Operations

variable {κ ν : Type} [BEq κ] [Hashable κ] {cache : RecencyCache κ ν}
  {newer older : List Nat} {position : Nat}

theorem IsConsistent.promote (consistent : cache.IsConsistent (newer ++ position :: older)) :
    (cache.promote position).IsConsistent (position :: (newer ++ older)) where
  toIsLinked := consistent.toIsLinked.promote
  whole := by
    intro other inside
    have member := consistent.whole other (by simpa using inside)
    simp only [List.mem_append, List.mem_cons] at member ⊢
    grind
  indexed := by
    intro key other
    simpa using consistent.indexed key other

/-- Only the value at the position changes. -/
theorem entryAt_setValue {key : κ} {old : ν} (value : ν)
    (found : cache.entryAt position = some (key, old)) (other : Nat) :
    { cache with slots := cache.slots.modify position ({ · with value }) }.entryAt other =
      if other = position then some (key, value) else cache.entryAt other := by
  rcases Option.map_eq_some_iff.mp found with ⟨slot, present, pair⟩
  cases pair
  simp only [entryAt, Array.getElem?_modify]
  by_cases here : other = position
  · subst here
    simp [present]
  · simp [here, Ne.symm here]

theorem IsConsistent.setValue {order : List Nat} {key : κ} {old : ν} (value : ν)
    (consistent : cache.IsConsistent order) (found : cache.entryAt position = some (key, old)) :
    { cache with slots := cache.slots.modify position ({ · with value }) }.IsConsistent order where
  chain := by
    apply isChain_of_agree consistent.chain
    · intro place _
      cases place with
      | none => rfl
      | some other =>
          simp only [olderOf, Array.getElem?_modify]
          split <;> cases cache.slots[other]? <;> rfl
    · intro place _
      cases place with
      | none => rfl
      | some other =>
          simp only [newerOf, Array.getElem?_modify]
          split <;> cases cache.slots[other]? <;> rfl
  nodup := consistent.nodup
  inside := by simpa using consistent.inside
  whole := by simpa using consistent.whole
  indexed := by
    intro wanted other
    rw [entryAt_setValue value found]
    have known := consistent.indexed wanted other
    by_cases here : other = position
    · subst here
      simpa [found] using known
    · simpa [here] using known

theorem entryAt_push (key : κ) (value : ν) (other : Nat) :
    (cache.push key value).entryAt other =
      if other = cache.slots.size then some (key, value) else cache.entryAt other := by
  simp only [push, entryAt_linkNewest]
  simp only [entryAt, Array.getElem?_push]
  split <;> rfl

theorem index_push (key : κ) (value : ν) :
    (cache.push key value).index = cache.index.insert key cache.slots.size := by
  simp [push]

theorem IsConsistent.push [LawfulBEq κ] {order : List Nat} {key : κ} (value : ν)
    (consistent : cache.IsConsistent order) (unknown : cache.index[key]? = none) :
    (cache.push key value).IsConsistent (cache.slots.size :: order) where
  toIsLinked := by
    have fresh : cache.slots.size ∉ order := by
      intro member
      exact Nat.lt_irrefl _ (consistent.inside _ member)
    -- No link leads to the new slot yet, so the old order is still linked.
    refine IsLinked.linkNewest (consistent.toIsLinked.of_slots (by rfl) (by rfl) ?_) (by simp) fresh
    intro other member
    have different := Nat.ne_of_lt (consistent.inside other member)
    simp [Array.getElem?_push, different]
  whole := by
    intro other inside
    simp only [RecencyCache.push, size_linkNewest, Array.size_push] at inside
    by_cases atEnd : other = cache.slots.size
    · simp [atEnd]
    · exact List.mem_cons_of_mem _ (consistent.whole other (by omega))
  indexed := by
    intro wanted other
    have known := consistent.indexed wanted other
    simp only [entryAt_push, index_push, Std.HashMap.getElem?_insert]
    by_cases atEnd : other = cache.slots.size
    · subst atEnd
      have beyond : ¬∃ value, cache.entryAt cache.slots.size = some (wanted, value) := by
        rintro ⟨value, found⟩
        exact Nat.lt_irrefl _ (lt_size_of_entryAt found)
      have notKnown := mt known.mp beyond
      by_cases same : key = wanted
      · subst same
        simp
      · simp [same, notKnown]
    · by_cases same : key = wanted
      · subst same
        rw [unknown] at known
        simpa [atEnd, Ne.symm atEnd] using known
      · simpa [atEnd, same] using known

/-- The cache without the entry at a position, before the entry that was moved there is linked. -/
def filled (cache : RecencyCache κ ν) (position : Nat) (key : κ) (last : RecencySlot κ ν) :
    RecencyCache κ ν :=
  { (cache.unlink position).fillGap position last with index := cache.index.erase key }

theorem removeAt_eq {slot last : RecencySlot κ ν} (found : cache.slots[position]? = some slot)
    (isLast : (cache.unlink position).slots[cache.slots.size - 1]? = some last) :
    cache.removeAt position =
      if position + 1 = cache.slots.size then cache.filled position slot.key last
      else (cache.filled position slot.key last).relink position := by
  have back : (cache.unlink position).slots.back? = some last := by
    rw [Array.back?_eq_getElem?, size_unlink]
    exact isLast
  simp only [removeAt, found, back, size_unlink, index_unlink]
  rfl

theorem index_relink {slot : RecencySlot κ ν} (found : cache.slots[position]? = some slot) :
    (cache.relink position).index = cache.index.insert slot.key position := by
  simp [relink, found]

/-- Relinking an entry does not look at the index. -/
theorem IsLinked.relink_of_index {order : List Nat} (index : Std.HashMap κ Nat)
    (linked : (cache.relink position).IsLinked order) :
    ({ cache with index }.relink position).IsLinked order := by
  cases found : cache.slots[position]? with
  | none =>
      simp only [relink, found] at linked ⊢
      exact linked.of_slots rfl rfl fun _ _ => rfl
  | some slot =>
      simp only [relink, found] at linked ⊢
      cases newerPlace : slot.newer <;> cases olderPlace : slot.older <;>
        simp only [newerPlace, olderPlace] at linked ⊢ <;> exact linked.of_slots rfl rfl fun _ _ => rfl

theorem getElem?_filled (key : κ) (last : RecencySlot κ ν)
    (notAtEnd : position + 1 < cache.slots.size) :
    (cache.filled position key last).slots[position]? = some last := by
  have slots : (cache.filled position key last).slots[position]? = _ :=
    getElem?_fillGap (by simp only [size_unlink]; omega) position
  rw [slots, size_unlink, if_pos notAtEnd, if_pos rfl]

theorem entryAt_filled (key : κ) {last : RecencySlot κ ν} (inside : position < cache.slots.size)
    (isLast : (cache.unlink position).slots[cache.slots.size - 1]? = some last) (other : Nat) :
    (cache.filled position key last).entryAt other =
      if other + 1 < cache.slots.size then
        if other = position then cache.entryAt (cache.slots.size - 1) else cache.entryAt other
      else none := by
  have slots : (cache.filled position key last).slots[other]? = _ :=
    getElem?_fillGap (by simpa using inside) other
  rw [size_unlink] at slots
  rw [entryAt, slots, ← entryAt_unlink cache position (cache.slots.size - 1),
    ← entryAt_unlink cache position other, entryAt, entryAt, isLast]
  split
  · split <;> rfl
  · rfl

theorem IsConsistent.position_unique {order : List Nat} {key : κ} {value otherValue : ν}
    {other : Nat} (consistent : cache.IsConsistent order)
    (found : cache.entryAt position = some (key, value))
    (otherFound : cache.entryAt other = some (key, otherValue)) : other = position := by
  have known := (consistent.indexed key position).mpr ⟨value, found⟩
  have again := (consistent.indexed key other).mpr ⟨otherValue, otherFound⟩
  rw [known] at again
  exact (Option.some.inj again).symm

/-- The other positions of an order are the other positions of the slots. -/
theorem IsConsistent.mem_others {other : Nat}
    (consistent : cache.IsConsistent (newer ++ position :: older)) :
    other ∈ newer ++ older ↔ other ≠ position ∧ other < cache.slots.size := by
  have nodup := consistent.nodup
  rw [List.nodup_append, List.nodup_cons] at nodup
  have inside := consistent.inside other
  have whole := consistent.whole other
  simp only [List.mem_append, List.mem_cons] at nodup inside whole ⊢
  grind

section Removing

variable [LawfulBEq κ] {slot last : RecencySlot κ ν}
  (consistent : cache.IsConsistent (newer ++ position :: older))
  (present : cache.slots[position]? = some slot)
  (isLast : (cache.unlink position).slots[cache.slots.size - 1]? = some last)

include consistent present isLast

/-- Removing the entry of the last slot leaves the others where they are. -/
theorem IsConsistent.filled_end (atEnd : position + 1 = cache.slots.size) :
    (cache.filled position slot.key last).IsConsistent (newer ++ older) := by
  have inside : position < cache.slots.size := by omega
  have fresh : position ∉ newer ++ older := by simp [consistent.mem_others]
  have found : cache.entryAt position = some (slot.key, slot.value) := by simp [entryAt, present]
  refine ⟨?_, ?_, ?_⟩
  · have linked : ((cache.unlink position).fillGap position last).IsLinked (newer ++ older) :=
      consistent.toIsLinked.unlink.fillGap_end fresh (by simpa using atEnd)
    exact linked.of_slots rfl rfl fun _ _ => rfl
  · intro other otherInside
    simp only [filled, size_fillGap, size_unlink] at otherInside
    exact consistent.mem_others.mpr (by omega)
  · intro wanted other
    have known := consistent.indexed wanted other
    have unique (value otherValue : ν) :
        cache.entryAt position = some (wanted, value) →
          cache.entryAt other = some (wanted, otherValue) → other = position :=
      consistent.position_unique
    have bound (value : ν) :
        cache.entryAt other = some (wanted, value) → other < cache.slots.size :=
      lt_size_of_entryAt
    rw [entryAt_filled slot.key inside isLast, show (cache.filled position slot.key last).index =
      cache.index.erase slot.key from rfl, Std.HashMap.getElem?_erase]
    grind

/-- Removing an entry before the last slot moves the last entry into its place. -/
theorem IsConsistent.relink_filled {before after : List Nat}
    (notAtEnd : position + 1 < cache.slots.size)
    (split : newer ++ older = before ++ (cache.slots.size - 1) :: after) :
    ((cache.filled position slot.key last).relink position).IsConsistent
      (before ++ position :: after) := by
  have inside : position < cache.slots.size := by omega
  have unlinked := consistent.toIsLinked.unlink
  have others (other : Nat) :
      other ∈ newer ++ older ↔ other ≠ position ∧ other < cache.slots.size :=
    consistent.mem_others
  rw [split] at unlinked others
  have fresh : position ∉ before ++ (cache.slots.size - 1) :: after := by simp [others]
  have found : cache.entryAt position = some (slot.key, slot.value) := by simp [entryAt, present]
  have lastEntry : cache.entryAt (cache.slots.size - 1) = some (last.key, last.value) := by
    rw [← entryAt_unlink cache position, entryAt, isLast]
    rfl
  refine ⟨?_, ?_, ?_⟩
  · have linked : (((cache.unlink position).fillGap position last).relink position).IsLinked
        (before ++ position :: after) :=
      IsLinked.relink_fillGap (by simpa using unlinked) (by simpa using fresh)
        (by simpa using notAtEnd) (by simpa using isLast)
    exact linked.relink_of_index (cache.index.erase slot.key)
  · intro other otherInside
    simp only [size_relink, filled, size_fillGap, size_unlink] at otherInside
    have member := others other
    simp only [List.mem_append, List.mem_cons] at member ⊢
    grind
  · intro wanted other
    have known := consistent.indexed wanted other
    have lastKnown := (consistent.indexed last.key _).mpr ⟨last.value, lastEntry⟩
    have unique (value otherValue : ν) :
        cache.entryAt position = some (wanted, value) →
          cache.entryAt other = some (wanted, otherValue) → other = position :=
      consistent.position_unique
    have lastUnique (value otherValue : ν) :
        cache.entryAt (cache.slots.size - 1) = some (wanted, value) →
          cache.entryAt other = some (wanted, otherValue) → other = cache.slots.size - 1 :=
      consistent.position_unique
    have bound (value : ν) :
        cache.entryAt other = some (wanted, value) → other < cache.slots.size :=
      lt_size_of_entryAt
    have index : ((cache.filled position slot.key last).relink position).index =
        (cache.index.erase slot.key).insert last.key position :=
      index_relink (getElem?_filled slot.key last notAtEnd)
    rw [entryAt_relink, entryAt_filled slot.key inside isLast, index,
      Std.HashMap.getElem?_insert, Std.HashMap.getElem?_erase]
    -- The key is that of the removed entry, that of the moved one, or another.
    grind

end Removing

/-- Removing an entry leaves the others in their order. -/
theorem IsConsistent.removeAt [LawfulBEq κ] {key : κ} {value : ν}
    (consistent : cache.IsConsistent (newer ++ position :: older))
    (found : cache.entryAt position = some (key, value)) :
    (cache.removeAt position).Holds ((newer ++ older).filterMap cache.entryAt) := by
  have inside := lt_size_of_entryAt found
  rcases Option.map_eq_some_iff.mp found with ⟨slot, present, -⟩
  obtain ⟨last, isLast⟩ : ∃ last,
      (cache.unlink position).slots[cache.slots.size - 1]? = some last :=
    ⟨_, Array.getElem?_eq_getElem (by simp; omega)⟩
  have entries := entryAt_filled slot.key inside isLast
  rw [removeAt_eq present isLast]
  split
  · next atEnd =>
      refine ⟨newer ++ older, consistent.filled_end present isLast atEnd, ?_⟩
      apply List.filterMap_congr
      intro other member
      rcases consistent.mem_others.mp member with ⟨different, otherInside⟩
      rw [entries, if_pos (by omega), if_neg different]
  · next notAtEnd =>
      -- The last entry moves into the gap, so the position stands for it in the order.
      have before : position + 1 < cache.slots.size := by omega
      have lastMember : cache.slots.size - 1 ∈ newer ++ older :=
        consistent.mem_others.mpr (by omega)
      rcases List.append_of_mem lastMember with ⟨front, back, split⟩
      have nodup := consistent.toIsLinked.unlink.nodup
      rw [split, List.nodup_append, List.nodup_cons] at nodup
      have kept (other : Nat) (member : other ∈ front ∨ other ∈ back) :
          ((cache.filled position slot.key last).relink position).entryAt other =
            cache.entryAt other := by
        have all : other ∈ newer ++ older := by
          rw [split, List.mem_append, List.mem_cons]
          exact member.imp_right Or.inr
        have notLast : other ≠ cache.slots.size - 1 := by
          simp only [List.mem_cons] at nodup
          grind
        rcases consistent.mem_others.mp all with ⟨different, otherInside⟩
        rw [entryAt_relink, entries, if_pos (by omega), if_neg different]
      have there : ((cache.filled position slot.key last).relink position).entryAt position =
          cache.entryAt (cache.slots.size - 1) := by
        rw [entryAt_relink, entries, if_pos before, if_pos rfl]
      refine ⟨front ++ position :: back,
        consistent.relink_filled present isLast before split, ?_⟩
      rw [split, List.filterMap_append, List.filterMap_append, List.filterMap_cons,
        List.filterMap_cons, there,
        List.filterMap_congr fun other member => kept other (Or.inl member),
        List.filterMap_congr fun other member => kept other (Or.inr member)]

end Operations

section Holding

variable {κ ν : Type} [BEq κ] [LawfulBEq κ] [Hashable κ] {cache : RecencyCache κ ν}
  {pairs : List (κ × ν)}

/--
A key that the index knows splits what the cache holds at its pair, which can be moved to the front
or removed.
-/
theorem Holds.known {key : κ} {position : Nat} (holds : cache.Holds pairs)
    (known : cache.index[key]? = some position) :
    ∃ newer older value, pairs = newer ++ (key, value) :: older ∧
      (∀ pair ∈ newer, pair.1 ≠ key) ∧
      cache.slots[position]?.map RecencySlot.value = some value ∧
      (cache.promote position).Holds ((key, value) :: (newer ++ older)) ∧
      (cache.removeAt position).Holds (newer ++ older) := by
  rcases holds with ⟨order, consistent, rfl⟩
  rcases consistent.split known with ⟨newer, older, value, rfl, found, absent⟩
  refine ⟨newer.filterMap cache.entryAt, older.filterMap cache.entryAt, value, ?_, absent,
    value_of_entryAt found, ?_, ?_⟩
  · simp [found]
  · refine ⟨_, consistent.promote, ?_⟩
    simp [found]
  · simpa using consistent.removeAt found

omit [LawfulBEq κ] in
theorem Holds.ne_of_unknown {key : κ} (holds : cache.Holds pairs)
    (unknown : cache.index[key]? = none) : ∀ pair ∈ pairs, pair.1 ≠ key := by
  rcases holds with ⟨order, consistent, rfl⟩
  intro pair member
  exact consistent.ne_of_unknown unknown member

theorem Holds.peek?_eq (holds : cache.Holds pairs) (key : κ) :
    cache.peek? key = pairs.lookup key := by
  cases found : cache.index[key]? with
  | none => simp [peek?, found, lookup_eq_none_of_ne (holds.ne_of_unknown found)]
  | some position =>
      rcases holds.known found with ⟨newer, older, value, rfl, absent, valueFound, _⟩
      simp [peek?, found, valueFound, lookup_split absent]

theorem Holds.contains_eq (holds : cache.Holds pairs) (key : κ) :
    cache.contains key = (pairs.lookup key).isSome := by
  rw [contains, Std.HashMap.contains_eq_isSome_getElem?]
  cases found : cache.index[key]? with
  | none => simp [lookup_eq_none_of_ne (holds.ne_of_unknown found)]
  | some position =>
      rcases holds.known found with ⟨newer, older, value, rfl, absent, _⟩
      simp [lookup_split absent]

theorem Holds.get {key : κ} {value : ν} (holds : cache.Holds pairs)
    (present : pairs.lookup key = some value) :
    (cache.get key).1 = some value ∧
      (cache.get key).2.Holds ((key, value) :: RecencyList.without key pairs) := by
  cases found : cache.index[key]? with
  | none =>
      rw [lookup_eq_none_of_ne (holds.ne_of_unknown found)] at present
      cases present
  | some position =>
      rcases holds.known found with ⟨newer, older, value, rfl, absent, valueFound, promoted, _⟩
      rw [lookup_split absent] at present
      cases present
      rw [RecencyCache.get, found, without_split absent]
      exact ⟨valueFound, promoted⟩

theorem Holds.get_missing {key : κ} (holds : cache.Holds pairs)
    (missing : pairs.lookup key = none) : cache.get key = (none, cache) := by
  cases found : cache.index[key]? with
  | none => simp [RecencyCache.get, found]
  | some position =>
      rcases holds.known found with ⟨newer, older, value, rfl, absent, _⟩
      rw [lookup_split absent] at missing
      cases missing

theorem Holds.remove (holds : cache.Holds pairs) (key : κ) :
    (cache.remove key).1 = pairs.lookup key ∧
      (cache.remove key).2.Holds (RecencyList.without key pairs) := by
  cases found : cache.index[key]? with
  | none =>
      have absent := holds.ne_of_unknown found
      rw [RecencyCache.remove, found, lookup_eq_none_of_ne absent, without_eq_self absent]
      exact ⟨rfl, holds⟩
  | some position =>
      rcases holds.known found with ⟨newer, older, value, rfl, absent, valueFound, _, removed⟩
      rw [RecencyCache.remove, found, lookup_split absent, without_split absent]
      exact ⟨valueFound, removed⟩

theorem Holds.evict (holds : cache.Holds pairs) : cache.evict.Holds pairs.dropLast := by
  rcases holds with ⟨order, consistent, rfl⟩
  rcases List.eq_nil_or_concat order with rfl | ⟨newer, position, rfl⟩
  · have oldest := consistent.oldest_eq
    simp only [List.getLast?_nil] at oldest
    rw [RecencyCache.evict, oldest]
    exact ⟨[], consistent, rfl⟩
  · rw [List.concat_eq_append] at consistent ⊢
    have oldest := consistent.oldest_eq
    rw [List.getLast?_concat] at oldest
    rcases exists_entryAt (consistent.inside position (by simp)) with ⟨⟨key, value⟩, found⟩
    rw [RecencyCache.evict, oldest]
    simpa [found] using consistent.removeAt found

/-- Changing the value of a key that the index knows moves its pair to the front. -/
theorem Holds.promote_setValue {key : κ} {position : Nat} (holds : cache.Holds pairs)
    (known : cache.index[key]? = some position) (value : ν) :
    ({ cache with slots := cache.slots.modify position ({ · with value }) }.promote position).Holds
      ((key, value) :: RecencyList.without key pairs) := by
  rcases holds with ⟨order, consistent, rfl⟩
  rcases consistent.split known with ⟨newer, older, old, rfl, found, absent⟩
  have changed := entryAt_setValue value found
  have others : ∀ other ∈ newer ++ older, other ≠ position := by
    have nodup := consistent.nodup
    rw [List.nodup_append, List.nodup_cons] at nodup
    simp only [List.mem_append, List.mem_cons] at nodup ⊢
    grind
  have kept : (newer ++ older).filterMap
      { cache with slots := cache.slots.modify position ({ · with value }) }.entryAt =
        (newer ++ older).filterMap cache.entryAt := by
    apply List.filterMap_congr
    intro other member
    rw [changed, if_neg (others other member)]
  have split : (newer ++ position :: older).filterMap cache.entryAt =
      newer.filterMap cache.entryAt ++ (key, old) :: older.filterMap cache.entryAt := by
    simp [found]
  rw [split, without_split absent]
  refine ⟨_, (consistent.setValue value found).promote, ?_⟩
  rw [List.filterMap_congr fun other _ => entryAt_promote _ position other]
  rw [List.filterMap_cons, kept, changed, if_pos rfl, List.filterMap_append]

/-- Pushing a key that the index does not know puts its pair at the front. -/
theorem Holds.push {key : κ} (holds : cache.Holds pairs) (value : ν)
    (unknown : cache.index[key]? = none) :
    (cache.push key value).Holds ((key, value) :: pairs) := by
  rcases holds with ⟨order, consistent, rfl⟩
  refine ⟨_, consistent.push value unknown, ?_⟩
  have kept : order.filterMap (cache.push key value).entryAt =
      order.filterMap cache.entryAt := by
    apply List.filterMap_congr
    intro other member
    rw [entryAt_push, if_neg (Nat.ne_of_lt (consistent.inside other member))]
  rw [List.filterMap_cons, kept, entryAt_push, if_pos rfl]

/-- Setting the value of a key moves its pair to the front, also when it is a new one. -/
theorem Holds.set (holds : cache.Holds pairs) (key : κ) (value : ν)
    (bounded : pairs.length ≤ cache.capacity) :
    (cache.set key value).1 = pairs.lookup key ∧
      (cache.set key value).2.Holds
        (if cache.capacity < ((key, value) :: RecencyList.without key pairs).length then
          ((key, value) :: RecencyList.without key pairs).dropLast
        else (key, value) :: RecencyList.without key pairs) := by
  cases found : cache.index[key]? with
  | some position =>
      have promoted := holds.promote_setValue found value
      rcases holds.known found with ⟨newer, older, old, rfl, absent, valueFound, _⟩
      -- The key leaves as many pairs as it finds, so nothing has to be evicted.
      have room : ¬cache.capacity < ((key, value) :: (newer ++ older)).length := by
        simp only [List.length_append, List.length_cons] at bounded ⊢
        omega
      rw [without_split absent] at promoted
      rw [RecencyCache.set, found, lookup_split absent, without_split absent, if_neg room]
      exact ⟨valueFound, promoted⟩
  | none =>
      have absent := holds.ne_of_unknown found
      have pushed := holds.push value found
      rw [RecencyCache.set, found, lookup_eq_none_of_ne absent, without_eq_self absent]
      refine ⟨rfl, ?_⟩
      simp only [capacity_push, pushed.size_eq]
      split
      · exact pushed.evict
      · exact pushed

end Holding

section Runs

variable {κ ν : Type} [BEq κ] [LawfulBEq κ] {pairs : List (κ × ν)}

omit [LawfulBEq κ] in
theorem length_without_le (key : κ) (pairs : List (κ × ν)) :
    (RecencyList.without key pairs).length ≤ pairs.length :=
  List.eraseP_sublist.length_le

theorem length_without_lt {key : κ} {value : ν} (present : pairs.lookup key = some value) :
    (RecencyList.without key pairs).length < pairs.length := by
  rcases List.lookup_eq_some_iff.mp present with ⟨newer, older, rfl, absent⟩
  have newerAbsent : ∀ pair ∈ newer, pair.1 ≠ key := by
    intro pair member
    exact Ne.symm (by simpa using absent pair member)
  rw [without_split newerAbsent]
  simp

/-- No action on a list makes it longer than the capacity. -/
theorem length_perform_le {capacity : Nat} (bounded : pairs.length ≤ capacity)
    (action : RecencyAction κ ν) :
    (RecencyList.perform capacity pairs action).2.length ≤ capacity := by
  cases action with
  | set key value =>
      have shorter := length_without_le key pairs
      simp only [RecencyList.perform]
      split
      · simp only [List.length_dropLast, List.length_cons]
        omega
      · omega
  | get key =>
      simp only [RecencyList.perform]
      split
      · next present =>
          have shorter := length_without_lt present
          simp only [List.length_cons]
          omega
      · exact bounded
  | peek key => exact bounded
  | has key => exact bounded
  | remove key => exact (length_without_le key pairs).trans bounded
  | clear => exact Nat.zero_le capacity

variable [Hashable κ] {cache : RecencyCache κ ν}

/-- An action on a cache has the answer and the effect of the action on the list that it holds. -/
theorem Holds.perform (holds : cache.Holds pairs) (bounded : pairs.length ≤ cache.capacity)
    (action : RecencyAction κ ν) :
    (cache.perform action).1 = (RecencyList.perform cache.capacity pairs action).1 ∧
      (cache.perform action).2.Holds (RecencyList.perform cache.capacity pairs action).2 ∧
      (cache.perform action).2.capacity = cache.capacity := by
  cases action with
  | set key value =>
      rcases holds.set key value bounded with ⟨answer, held⟩
      refine ⟨congrArg RecencyAnswer.value answer, held, ?_⟩
      exact cache.capacity_set key value
  | get key =>
      cases found : pairs.lookup key with
      | none =>
          rw [RecencyCache.perform, holds.get_missing found, RecencyList.perform, found]
          exact ⟨rfl, holds, rfl⟩
      | some value =>
          rcases holds.get found with ⟨answer, held⟩
          simp only [RecencyList.perform, found]
          exact ⟨congrArg RecencyAnswer.value answer, held, cache.capacity_get key⟩
  | peek key => exact ⟨congrArg RecencyAnswer.value (holds.peek?_eq key), holds, rfl⟩
  | has key => exact ⟨congrArg RecencyAnswer.presence (holds.contains_eq key), holds, rfl⟩
  | remove key =>
      rcases holds.remove key with ⟨answer, held⟩
      exact ⟨congrArg RecencyAnswer.value answer, held, cache.capacity_remove key⟩
  | clear => exact ⟨rfl, holds_empty cache.capacity, rfl⟩

/-- A whole run on a cache looks like the run on the list that it holds. -/
theorem Holds.observe (holds : cache.Holds pairs) (bounded : pairs.length ≤ cache.capacity)
    (actions : List (RecencyAction κ ν)) :
    cache.observe actions = RecencyList.observe cache.capacity pairs actions := by
  induction actions generalizing cache pairs with
  | nil => rfl
  | cons action rest ih =>
      rcases holds.perform bounded action with ⟨answer, held, capacity⟩
      have still := length_perform_le bounded action
      have following := ih held (by rwa [capacity])
      rw [capacity] at following
      simp only [RecencyCache.observe, RecencyList.observe]
      rw [following, answer, held.size_eq, keys, held.toList_eq]

end Runs

/--
From the empty cache on, every run of actions is answered like on the list of pairs, with the same
size and the same order of keys after every action.
-/
theorem observe_empty {κ ν : Type} [DecidableEq κ] [Hashable κ] (capacity : Nat)
    (actions : List (RecencyAction κ ν)) :
    (empty capacity : RecencyCache κ ν).observe actions =
      RecencyList.observe capacity [] actions :=
  (holds_empty capacity).observe (Nat.zero_le _) actions

end RecencyCache

end LocalizedText
