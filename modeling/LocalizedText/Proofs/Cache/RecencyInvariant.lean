import LocalizedText.Proofs.Cache.RecencyList

/-!
# The shape of a recency cache

What a recency cache relies on can be said without the list that it stands for. The index knows
every stored key and nothing else. The older neighbours lead from the newest entry through every
position once and then outside, and the newer neighbours lead the same way back. A cache has this
shape just when it is consistent with some order of its positions, which then is the order that the
neighbours lead through.
-/

namespace LocalizedText

/-- The positions on the way that starts at a place, at most `bound` of them. -/
def positionsAlong (next : Option Nat → Option Nat) : (bound : Nat) → Option Nat → List Nat
  | 0, _ => []
  | _, none => []
  | bound + 1, some position => position :: positionsAlong next bound (next (some position))

namespace RecencyCache

section Ways

variable {next : Option Nat → Option Nat} {order : List Nat} {place : Option Nat}

theorem head?_of_forall_positionsAlong
    (visits : ∀ bound, positionsAlong next bound place = order.take bound) :
    place = order.head? := by
  have first := visits 1
  cases place <;> cases order <;> simp_all [positionsAlong]

/-- The links along an order say the same as the way that starts in front of it. -/
theorem isChain_placesFrom_iff :
    (place :: placesFrom order).IsChain (next · = ·) ↔
      ∀ bound, positionsAlong next bound (next place) = order.take bound := by
  induction order generalizing place with
  | nil =>
      rw [placesFrom, List.map_nil, List.nil_append, List.isChain_pair]
      constructor
      · intro outside bound
        cases bound <;> simp [outside, positionsAlong]
      · intro visits
        simpa using head?_of_forall_positionsAlong visits
  | cons position rest ih =>
      rw [placesFrom, List.map_cons, List.cons_append, ← placesFrom, List.isChain_cons_cons, ih]
      constructor
      · rintro ⟨first, visits⟩ bound
        rw [first]
        cases bound with
        | zero => rfl
        | succ bound => simp [positionsAlong, visits bound]
      · intro visits
        have first : next place = some position := by
          simpa using head?_of_forall_positionsAlong visits
        refine ⟨first, ?_⟩
        intro bound
        simpa [first, positionsAlong] using visits (bound + 1)

theorem circle_reverse (order : List Nat) : circle order.reverse = (circle order).reverse := by
  simp [circle, placesFrom]

theorem isChain_and_iff {places : List (Option Nat)}
    {first second : Option Nat → Option Nat → Prop} :
    places.IsChain (fun before after => first before after ∧ second before after) ↔
      places.IsChain first ∧ places.IsChain second := by
  induction places with
  | nil => simp
  | cons before rest ih =>
      cases rest with
      | nil => simp
      | cons after rest =>
          simp only [List.isChain_cons_cons, ih]
          exact and_and_and_comm

end Ways

variable {κ ν : Type} [BEq κ] [Hashable κ] {cache : RecencyCache κ ν}

theorem isChain_adjacent_iff {order : List Nat} :
    (circle order).IsChain cache.Adjacent ↔
      (∀ bound, positionsAlong cache.olderOf bound cache.newest = order.take bound) ∧
        ∀ bound, positionsAlong cache.newerOf bound cache.oldest = order.reverse.take bound := by
  have back : (circle order).IsChain (fun newer older => cache.newerOf older = newer) ↔
      (circle order.reverse).IsChain (cache.newerOf · = ·) := by
    rw [circle_reverse, List.isChain_reverse]
  have split : (circle order).IsChain cache.Adjacent ↔ _ := isChain_and_iff
  rw [split, back]
  exact and_congr isChain_placesFrom_iff isChain_placesFrom_iff

/-- The positions as the older neighbours lead through them, from the newest entry on. -/
def order (cache : RecencyCache κ ν) : List Nat :=
  positionsAlong cache.olderOf cache.size cache.newest

/-- The index, the neighbours and the ends of a cache fit its slots. -/
structure IsWellFormed (cache : RecencyCache κ ν) : Prop where
  /-- The index knows just the stored keys, each at the one position where it is stored. -/
  indexed : ∀ (key : κ) (position : Nat), cache.index[key]? = some position ↔
    cache.slots[position]?.map RecencySlot.key = some key
  /-- The older neighbours lead through every position once. -/
  perm : cache.order.Perm (List.range cache.size)
  /-- However far one goes on, there is nothing more to find. -/
  older : ∀ bound, positionsAlong cache.olderOf bound cache.newest = cache.order.take bound
  /-- The newer neighbours lead the same way back. -/
  newer : ∀ bound, positionsAlong cache.newerOf bound cache.oldest = cache.order.reverse.take bound
  inverse : ∀ newer older,
    cache.olderOf (some newer) = some older ↔ cache.newerOf (some older) = some newer
  head : cache.order.head? = cache.newest
  last : cache.order.getLast? = cache.oldest
  newest_eq_none_iff : cache.newest = none ↔ cache.size = 0
  oldest_eq_none_iff : cache.oldest = none ↔ cache.size = 0
  room : cache.size ≤ cache.capacity

theorem indexed_iff_entryAt {key : κ} {position : Nat} :
    cache.slots[position]?.map RecencySlot.key = some key ↔
      ∃ value, cache.entryAt position = some (key, value) := by
  cases found : cache.slots[position]? <;> simp [entryAt, found]

section Consistent

variable {order : List Nat}

theorem IsConsistent.order_eq (consistent : cache.IsConsistent order) : cache.order = order := by
  rw [RecencyCache.order, (isChain_adjacent_iff.mp consistent.chain).1, consistent.size_eq,
    List.take_length]

/-- Two entries are neighbours on the way there just when they are on the way back. -/
theorem IsConsistent.olderOf_eq_some_iff (consistent : cache.IsConsistent order)
    (newer older : Nat) :
    cache.olderOf (some newer) = some older ↔ cache.newerOf (some older) = some newer := by
  constructor
  · intro linked
    have inside : newer < cache.slots.size := by
      by_contra beyond
      simp [olderOf, Array.getElem?_eq_none (not_lt.mp beyond)] at linked
    rcases List.append_of_mem (consistent.whole newer inside) with ⟨before, behind, rfl⟩
    rcases consistent.exists_slot with ⟨slot, found, -, olderEq⟩
    simp only [olderOf, found, Option.bind_some, olderEq] at linked
    rcases List.head?_eq_some_iff.mp linked with ⟨rest, rfl⟩
    have linked' : cache.IsLinked ((before ++ [newer]) ++ older :: rest) := by
      simpa using consistent.toIsLinked
    rcases linked'.exists_slot with ⟨next, nextFound, newerEq, -⟩
    simp [newerOf, nextFound, newerEq]
  · intro linked
    have inside : older < cache.slots.size := by
      by_contra beyond
      simp [newerOf, Array.getElem?_eq_none (not_lt.mp beyond)] at linked
    rcases List.append_of_mem (consistent.whole older inside) with ⟨before, behind, rfl⟩
    rcases consistent.exists_slot with ⟨slot, found, newerEq, -⟩
    simp only [newerOf, found, Option.bind_some, newerEq] at linked
    rcases List.getLast?_eq_some_iff.mp linked with ⟨front, rfl⟩
    have linked' : cache.IsLinked (front ++ newer :: (older :: behind)) := by
      simpa using consistent.toIsLinked
    rcases linked'.exists_slot with ⟨next, nextFound, -, olderEq⟩
    simp [olderOf, nextFound, olderEq]

theorem IsConsistent.isWellFormed (consistent : cache.IsConsistent order)
    (room : cache.size ≤ cache.capacity) : cache.IsWellFormed := by
  have isOrder := consistent.order_eq
  have ways := isChain_adjacent_iff.mp consistent.chain
  have length := consistent.size_eq
  constructor
  · intro key position
    rw [consistent.indexed, indexed_iff_entryAt]
  · rw [isOrder]
    exact consistent.perm_range
  · rw [isOrder]
    exact ways.1
  · rw [isOrder]
    exact ways.2
  · exact consistent.olderOf_eq_some_iff
  · rw [isOrder, consistent.newest_eq]
  · rw [isOrder, consistent.oldest_eq]
  · rw [consistent.newest_eq, List.head?_eq_none_iff, length, List.length_eq_zero_iff]
  · rw [consistent.oldest_eq, List.getLast?_eq_none_iff, length, List.length_eq_zero_iff]
  · exact room

end Consistent

theorem IsWellFormed.isConsistent (wellFormed : cache.IsWellFormed) :
    cache.IsConsistent cache.order := by
  have mem_order (position : Nat) : position ∈ cache.order ↔ position < cache.slots.size := by
    rw [wellFormed.perm.mem_iff, List.mem_range]
    rfl
  refine ⟨⟨?_, ?_, ?_⟩, ?_, ?_⟩
  · exact isChain_adjacent_iff.mpr ⟨wellFormed.older, wellFormed.newer⟩
  · exact wellFormed.perm.nodup_iff.mpr List.nodup_range
  · intro position member
    exact (mem_order position).mp member
  · intro position inside
    exact (mem_order position).mpr inside
  · intro key position
    rw [wellFormed.indexed, indexed_iff_entryAt]

theorem IsWellFormed.holds (wellFormed : cache.IsWellFormed) :
    cache.Holds (cache.order.filterMap cache.entryAt) :=
  ⟨cache.order, wellFormed.isConsistent, rfl⟩

theorem Holds.isWellFormed {pairs : List (κ × ν)} (holds : cache.Holds pairs)
    (room : pairs.length ≤ cache.capacity) : cache.IsWellFormed := by
  rw [← holds.size_eq] at room
  rcases holds with ⟨order, consistent, -⟩
  exact consistent.isWellFormed room

theorem isWellFormed_empty (capacity : Nat) : (empty capacity : RecencyCache κ ν).IsWellFormed :=
  (holds_empty capacity).isWellFormed (Nat.zero_le _)

theorem entriesFrom_eq_filterMap (bound : Nat) (place : Option Nat) :
    cache.entriesFrom bound place =
      (positionsAlong cache.olderOf bound place).filterMap cache.entryAt := by
  induction bound generalizing place with
  | zero => rfl
  | succ bound ih =>
      cases place with
      | none => rfl
      | some position =>
          cases found : cache.slots[position]? with
          | none => cases bound <;> simp [entriesFrom, positionsAlong, entryAt, olderOf, found]
          | some slot => simp [entriesFrom, positionsAlong, entryAt, olderOf, found, ih]

/-- The iteration ends by itself: going on for longer finds no more entries than there are. -/
theorem IsWellFormed.length_entriesFrom (wellFormed : cache.IsWellFormed) (bound : Nat) :
    (cache.entriesFrom bound cache.newest).length = min bound cache.size := by
  have length : cache.order.length = cache.size := by
    simpa using wellFormed.perm.length_eq
  rw [entriesFrom_eq_filterMap, wellFormed.older, List.length_filterMap_eq_countP,
    List.countP_eq_length.mpr, List.length_take, length]
  intro position member
  have inside := wellFormed.isConsistent.inside position (List.mem_of_mem_take member)
  rcases exists_entryAt inside with ⟨pair, found⟩
  simp [found]

/-- No action breaks the shape of a cache. -/
theorem IsWellFormed.perform [LawfulBEq κ] (wellFormed : cache.IsWellFormed)
    (action : RecencyAction κ ν) : (cache.perform action).2.IsWellFormed := by
  have bounded := wellFormed.room
  rw [wellFormed.holds.size_eq] at bounded
  rcases wellFormed.holds.perform bounded action with ⟨-, held, capacity⟩
  apply held.isWellFormed
  rw [capacity]
  exact length_perform_le bounded action

theorem IsWellFormed.after [LawfulBEq κ] (wellFormed : cache.IsWellFormed)
    (actions : List (RecencyAction κ ν)) : (cache.after actions).IsWellFormed := by
  induction actions generalizing cache with
  | nil => exact wellFormed
  | cons action rest ih => exact ih (wellFormed.perform action)

end RecencyCache

end LocalizedText
