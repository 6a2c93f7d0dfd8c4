import LocalizedText.Proofs.Cache.RecencyInvariant

/-!
# The slots that a recency cache looks at

An operation on a cache follows positions that the index and the neighbours name, and it leaves
things as they are where there is no slot. Here every operation stands once more as a computation
that ends without a result at the first slot that is not there. In a cache of the right shape none
of them ever does, so each slot that an operation reads or changes is one of the cache.
-/

namespace LocalizedText

namespace RecencyCache

section Steps

variable {κ ν : Type} [BEq κ] [Hashable κ] (cache : RecencyCache κ ν)

/-- The cache with a slot changed, if there is one at the position. -/
def changeWithin? (position : Nat) (change : RecencySlot κ ν → RecencySlot κ ν) :
    Option (RecencyCache κ ν) :=
  if position < cache.slots.size then
    some { cache with slots := cache.slots.modify position change }
  else none

def linkOlderWithin? : (place target : Option Nat) → Option (RecencyCache κ ν)
  | none, target => some { cache with newest := target }
  | some position, target => cache.changeWithin? position ({ · with older := target })

def linkNewerWithin? : (place target : Option Nat) → Option (RecencyCache κ ν)
  | none, target => some { cache with oldest := target }
  | some position, target => cache.changeWithin? position ({ · with newer := target })

def unlinkWithin? (position : Nat) : Option (RecencyCache κ ν) := do
  let slot ← cache.slots[position]?
  let cache ← cache.linkOlderWithin? slot.newer slot.older
  cache.linkNewerWithin? slot.older slot.newer

def linkNewestWithin? (position : Nat) : Option (RecencyCache κ ν) := do
  let cache ← cache.changeWithin? position ({ · with newer := none, older := cache.newest })
  let cache ← cache.linkNewerWithin? cache.newest (some position)
  some { cache with newest := some position }

def promoteWithin? (position : Nat) : Option (RecencyCache κ ν) :=
  if cache.newest = some position then some cache
  else do
    let cache ← cache.unlinkWithin? position
    cache.linkNewestWithin? position

def relinkWithin? (position : Nat) : Option (RecencyCache κ ν) := do
  let slot ← cache.slots[position]?
  let cache ← cache.linkOlderWithin? slot.newer (some position)
  let cache ← cache.linkNewerWithin? slot.older (some position)
  some { cache with index := cache.index.insert slot.key position }

def removeAtWithin? (position : Nat) : Option (RecencyCache κ ν) := do
  let slot ← cache.slots[position]?
  let cache ← cache.unlinkWithin? position
  let last ← cache.slots.back?
  let filled :=
    { cache with
      slots := (cache.slots.setIfInBounds position last).pop
      index := cache.index.erase slot.key }
  if position + 1 = cache.slots.size then some filled else filled.relinkWithin? position

def evictWithin? : Option (RecencyCache κ ν) :=
  match cache.oldest with
  | none => some cache
  | some position => cache.removeAtWithin? position

def pushWithin? (key : κ) (value : ν) : Option (RecencyCache κ ν) :=
  let position := cache.slots.size
  let cache :=
    { cache with
      slots := cache.slots.push { key, value, newer := none, older := none }
      index := cache.index.insert key position }
  cache.linkNewestWithin? position

def getWithin? (key : κ) : Option (Option ν × RecencyCache κ ν) :=
  match cache.index[key]? with
  | none => some (none, cache)
  | some position => do
      let cache ← cache.promoteWithin? position
      let slot ← cache.slots[position]?
      some (some slot.value, cache)

def peekWithin? (key : κ) : Option (Option ν) :=
  match cache.index[key]? with
  | none => some none
  | some position => do
      let slot ← cache.slots[position]?
      some (some slot.value)

def setWithin? (key : κ) (value : ν) : Option (Option ν × RecencyCache κ ν) :=
  match cache.index[key]? with
  | some position => do
      let slot ← cache.slots[position]?
      let cache ← cache.changeWithin? position ({ · with value })
      let cache ← cache.promoteWithin? position
      some (some slot.value, cache)
  | none => do
      let cache ← cache.pushWithin? key value
      let cache ← if cache.capacity < cache.size then cache.evictWithin? else some cache
      some (none, cache)

def removeWithin? (key : κ) : Option (Option ν × RecencyCache κ ν) :=
  match cache.index[key]? with
  | none => some (none, cache)
  | some position => do
      let slot ← cache.slots[position]?
      let cache ← cache.removeAtWithin? position
      some (some slot.value, cache)

/-- An action, which ends without a result where a slot is not there. -/
def performWithin? : RecencyAction κ ν → Option (RecencyAnswer ν × RecencyCache κ ν)
  | .set key value => do
      let (previous, cache) ← cache.setWithin? key value
      some (.value previous, cache)
  | .get key => do
      let (found, cache) ← cache.getWithin? key
      some (.value found, cache)
  | .peek key => do
      let found ← cache.peekWithin? key
      some (.value found, cache)
  | .has key => some (.presence (cache.contains key), cache)
  | .remove key => do
      let (found, cache) ← cache.removeWithin? key
      some (.value found, cache)
  | .clear => some (.done, cache.clear)

end Steps

section Linking

variable {κ ν : Type} [BEq κ] [Hashable κ] {cache : RecencyCache κ ν} {newer older : List Nat}
  {position : Nat}

theorem changeWithin?_eq (inside : position < cache.slots.size)
    (change : RecencySlot κ ν → RecencySlot κ ν) :
    cache.changeWithin? position change =
      some { cache with slots := cache.slots.modify position change } :=
  if_pos inside

theorem linkOlderWithin?_eq {place : Option Nat} (known : cache.HasPlace place)
    (target : Option Nat) :
    cache.linkOlderWithin? place target = some (cache.linkOlder place target) := by
  cases place with
  | none => rfl
  | some position => exact changeWithin?_eq known _

theorem linkNewerWithin?_eq {place : Option Nat} (known : cache.HasPlace place)
    (target : Option Nat) :
    cache.linkNewerWithin? place target = some (cache.linkNewer place target) := by
  cases place with
  | none => rfl
  | some position => exact changeWithin?_eq known _

theorem IsLinked.unlinkWithin?_eq (linked : cache.IsLinked (newer ++ position :: older)) :
    cache.unlinkWithin? position = some (cache.unlink position) := by
  have newerPlace : cache.HasPlace newer.getLast? := linked.hasPlace_getLast? (by simp_all)
  have olderPlace : cache.HasPlace older.head? := linked.hasPlace_head? (by simp_all)
  rcases linked.exists_slot with ⟨slot, found, newerEq, olderEq⟩
  have olderPlace' : (cache.linkOlder newer.getLast? older.head?).HasPlace older.head? := by
    simpa using olderPlace
  simp only [unlinkWithin?, found, newerEq, olderEq, Option.bind_eq_bind, Option.bind_some,
    linkOlderWithin?_eq newerPlace, linkNewerWithin?_eq olderPlace', linked.unlink_eq]

theorem linkNewestWithin?_eq (inside : position < cache.slots.size)
    (known : cache.HasPlace cache.newest) :
    cache.linkNewestWithin? position = some (cache.linkNewest position) := by
  have known' :
      { cache with
        slots := cache.slots.modify position
          ({ · with newer := none, older := cache.newest }) }.HasPlace cache.newest := by
    cases newest : cache.newest with
    | none => trivial
    | some other =>
        rw [newest] at known
        simpa [HasPlace] using known
  simp only [linkNewestWithin?, changeWithin?_eq inside, Option.bind_eq_bind, Option.bind_some,
    linkNewerWithin?_eq known']
  rfl

theorem IsLinked.hasPlace_newest {order : List Nat} (linked : cache.IsLinked order) :
    cache.HasPlace cache.newest := by
  rw [linked.newest_eq]
  exact linked.hasPlace_head? (by simp)

theorem IsLinked.promoteWithin?_eq (linked : cache.IsLinked (newer ++ position :: older)) :
    cache.promoteWithin? position = some (cache.promote position) := by
  have inside : position < (cache.unlink position).slots.size := by
    simpa using linked.inside position (by simp)
  have linkedNewest := linkNewestWithin?_eq inside linked.unlink.hasPlace_newest
  rw [promoteWithin?, RecencyCache.promote]
  split
  · rfl
  · simp only [linked.unlinkWithin?_eq, Option.bind_eq_bind, Option.bind_some, linkedNewest]

theorem relinkWithin?_eq {slot : RecencySlot κ ν} (found : cache.slots[position]? = some slot)
    (newerPlace : cache.HasPlace slot.newer) (olderPlace : cache.HasPlace slot.older) :
    cache.relinkWithin? position = some (cache.relink position) := by
  have olderPlace' : (cache.linkOlder slot.newer (some position)).HasPlace slot.older := by
    simpa using olderPlace
  simp only [relinkWithin?, relink, found, Option.bind_eq_bind, Option.bind_some,
    linkOlderWithin?_eq newerPlace, linkNewerWithin?_eq olderPlace']

end Linking

section Operations

variable {κ ν : Type} [BEq κ] [Hashable κ] {cache : RecencyCache κ ν} {order : List Nat}
  {position : Nat}

theorem IsConsistent.removeAtWithin?_eq (consistent : cache.IsConsistent order)
    (member : position ∈ order) :
    cache.removeAtWithin? position = some (cache.removeAt position) := by
  rcases List.append_of_mem member with ⟨newer, older, rfl⟩
  have inside := consistent.inside position member
  rcases consistent.exists_slot with ⟨slot, found, -, -⟩
  obtain ⟨last, isLast⟩ : ∃ last,
      (cache.unlink position).slots[cache.slots.size - 1]? = some last :=
    ⟨_, Array.getElem?_eq_getElem (by simp; omega)⟩
  have back : (cache.unlink position).slots.back? = some last := by
    rw [Array.back?_eq_getElem?, size_unlink]
    exact isLast
  rw [removeAt_eq found isLast, removeAtWithin?, found, consistent.unlinkWithin?_eq]
  simp only [Option.bind_eq_bind, Option.bind_some, back, size_unlink, index_unlink]
  split
  · rfl
  · next notAtEnd =>
      -- The last entry is moved, and its links lead to slots that are still there.
      have before : position + 1 < cache.slots.size := by omega
      have lastMember : cache.slots.size - 1 ∈ newer ++ older :=
        consistent.mem_others.mpr (by omega)
      rcases List.append_of_mem lastMember with ⟨front, behind, split⟩
      have linked : (cache.unlink position).IsLinked
          (front ++ ((cache.unlink position).slots.size - 1) :: behind) := by
        simpa [← split] using consistent.unlink
      obtain ⟨newerPlace, olderPlace⟩ :
          ((cache.unlink position).fillGap position last).HasPlace front.getLast? ∧
            ((cache.unlink position).fillGap position last).HasPlace behind.head? :=
        linked.hasPlace_fillGap
      rcases linked.links_eq (by rw [size_unlink]; exact isLast) with ⟨newerEq, olderEq⟩
      apply relinkWithin?_eq (getElem?_filled slot.key last before)
      · rw [newerEq]
        cases place : front.getLast? <;> simp_all [HasPlace, filled]
      · rw [olderEq]
        cases place : behind.head? <;> simp_all [HasPlace, filled]

theorem IsConsistent.evictWithin?_eq (consistent : cache.IsConsistent order) :
    cache.evictWithin? = some cache.evict := by
  cases oldest : cache.oldest with
  | none => simp [evictWithin?, evict, oldest]
  | some position =>
      have member : position ∈ order := by
        rw [consistent.oldest_eq] at oldest
        exact List.mem_of_getLast? oldest
      simp [evictWithin?, evict, oldest, consistent.removeAtWithin?_eq member]

theorem IsConsistent.pushWithin?_eq (consistent : cache.IsConsistent order) (key : κ) (value : ν) :
    cache.pushWithin? key value = some (cache.push key value) := by
  apply linkNewestWithin?_eq
  · simp
  · have known := consistent.hasPlace_newest
    cases newest : cache.newest with
    | none => trivial
    | some other =>
        simp only [newest, HasPlace, Array.size_push] at known ⊢
        omega

theorem IsConsistent.getWithin?_eq (consistent : cache.IsConsistent order) (key : κ) :
    cache.getWithin? key = some (cache.get key) := by
  cases known : cache.index[key]? with
  | none => simp [getWithin?, RecencyCache.get, known]
  | some position =>
      rcases consistent.split known with ⟨newer, older, value, rfl, found, -⟩
      have kept := value_of_entryAt ((entryAt_promote cache position position).trans found)
      rcases Option.map_eq_some_iff.mp kept with ⟨slot, present, rfl⟩
      simp [getWithin?, RecencyCache.get, known, consistent.promoteWithin?_eq, present,
        value_of_entryAt found]

theorem IsConsistent.peekWithin?_eq (consistent : cache.IsConsistent order) (key : κ) :
    cache.peekWithin? key = some (cache.peek? key) := by
  cases known : cache.index[key]? with
  | none => simp [peekWithin?, peek?, known]
  | some position =>
      rcases consistent.split known with ⟨newer, older, value, rfl, found, -⟩
      rcases Option.map_eq_some_iff.mp (value_of_entryAt found) with ⟨slot, present, rfl⟩
      simp [peekWithin?, peek?, known, present]

theorem IsConsistent.removeWithin?_eq (consistent : cache.IsConsistent order) (key : κ) :
    cache.removeWithin? key = some (cache.remove key) := by
  cases known : cache.index[key]? with
  | none => simp [removeWithin?, RecencyCache.remove, known]
  | some position =>
      rcases consistent.split known with ⟨newer, older, value, rfl, found, -⟩
      rcases Option.map_eq_some_iff.mp (value_of_entryAt found) with ⟨slot, present, rfl⟩
      simp [removeWithin?, RecencyCache.remove, known, consistent.removeAtWithin?_eq, present]

theorem IsConsistent.setWithin?_eq [LawfulBEq κ] (consistent : cache.IsConsistent order) (key : κ)
    (value : ν) : cache.setWithin? key value = some (cache.set key value) := by
  cases known : cache.index[key]? with
  | some position =>
      rcases consistent.split known with ⟨newer, older, old, rfl, found, -⟩
      rcases Option.map_eq_some_iff.mp (value_of_entryAt found) with ⟨slot, present, rfl⟩
      have changed := changeWithin?_eq (lt_size_of_entryAt found) ({ · with value })
      have promoted := (consistent.setValue value found).promoteWithin?_eq
      simp [setWithin?, RecencyCache.set, known, present, changed, promoted]
  | none =>
      have evicted := (consistent.push value known).evictWithin?_eq
      simp only [setWithin?, RecencyCache.set, known, consistent.pushWithin?_eq,
        Option.bind_eq_bind, Option.bind_some]
      split
      · simp [evicted]
      · rfl

/-- In a cache of the right shape an action touches no slot that is not there. -/
theorem IsWellFormed.performWithin?_eq [LawfulBEq κ] (wellFormed : cache.IsWellFormed)
    (action : RecencyAction κ ν) : cache.performWithin? action = some (cache.perform action) := by
  have consistent := wellFormed.isConsistent
  cases action with
  | set key value => simp [performWithin?, RecencyCache.perform, consistent.setWithin?_eq]
  | get key => simp [performWithin?, RecencyCache.perform, consistent.getWithin?_eq]
  | peek key => simp [performWithin?, RecencyCache.perform, consistent.peekWithin?_eq]
  | has key => rfl
  | remove key => simp [performWithin?, RecencyCache.perform, consistent.removeWithin?_eq]
  | clear => rfl

end Operations

/--
After any sequence of actions from the empty cache on, the cache has the right shape, any further
action touches only slots of the cache and keeps the shape, and going through the entries ends with
as many as there are.
-/
theorem isWellFormed_after_empty {κ ν : Type} [DecidableEq κ] [Hashable κ] (capacity : Nat)
    (actions : List (RecencyAction κ ν)) :
    let cache := (empty capacity : RecencyCache κ ν).after actions
    cache.IsWellFormed ∧
      (∀ action, cache.performWithin? action = some (cache.perform action) ∧
        (cache.perform action).2.IsWellFormed) ∧
      ∀ bound, (cache.entriesFrom bound cache.newest).length = min bound cache.size := by
  intro cache
  have wellFormed : cache.IsWellFormed := (isWellFormed_empty capacity).after actions
  refine ⟨wellFormed, ?_, wellFormed.length_entriesFrom⟩
  intro action
  exact ⟨wellFormed.performWithin?_eq action, wellFormed.perform action⟩

end RecencyCache

end LocalizedText
