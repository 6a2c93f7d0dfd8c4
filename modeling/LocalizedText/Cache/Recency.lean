import Std.Data.HashMap

/-!
# Caches that forget what was used least recently

The entries of a recency cache stand in an array without gaps. Each entry names its neighbours in
the order of use by their positions, and an index finds the position of a key, so that no operation
walks through the entries. Removing an entry moves the last one of the array into the gap.

`RecencyCache.toList` is the cache as the list of its entries, the most recently used one first;
every operation is understood through it.
-/

namespace LocalizedText

/-- An entry of a recency cache and its neighbours in the order of use. -/
structure RecencySlot (κ ν : Type) where
  key : κ
  value : ν
  /-- The position of the entry used just after this one. -/
  newer : Option Nat
  /-- The position of the entry used just before this one. -/
  older : Option Nat

/-- A cache of at most `capacity` entries that forgets the one used least recently. -/
structure RecencyCache (κ ν : Type) [BEq κ] [Hashable κ] where
  /-- The position of every key. -/
  index : Std.HashMap κ Nat
  slots : Array (RecencySlot κ ν)
  /-- The position of the entry used most recently. -/
  newest : Option Nat
  /-- The position of the entry used least recently. -/
  oldest : Option Nat
  capacity : Nat

namespace RecencyCache

variable {κ ν : Type} [BEq κ] [Hashable κ]

def empty (capacity : Nat) : RecencyCache κ ν :=
  { index := ∅, slots := #[], newest := none, oldest := none, capacity }

def size (cache : RecencyCache κ ν) : Nat :=
  cache.slots.size

/-- The entries from a position on towards the older ones, at most `bound` of them. -/
def entriesFrom (cache : RecencyCache κ ν) : (bound : Nat) → Option Nat → List (κ × ν)
  | 0, _ => []
  | _, none => []
  | bound + 1, some position =>
      match cache.slots[position]? with
      | none => []
      | some slot => (slot.key, slot.value) :: cache.entriesFrom bound slot.older

/-- The entries, the most recently used one first. -/
def toList (cache : RecencyCache κ ν) : List (κ × ν) :=
  cache.entriesFrom cache.size cache.newest

/-- The keys, the most recently used one first. -/
def keys (cache : RecencyCache κ ν) : List κ :=
  cache.toList.map Prod.fst

/-- The cache with another older neighbour of the entry at a position, or another newest entry. -/
def linkOlder (cache : RecencyCache κ ν) (position target : Option Nat) : RecencyCache κ ν :=
  match position with
  | none => { cache with newest := target }
  | some position =>
      { cache with slots := cache.slots.modify position ({ · with older := target }) }

/-- The cache with another newer neighbour of the entry at a position, or another oldest entry. -/
def linkNewer (cache : RecencyCache κ ν) (position target : Option Nat) : RecencyCache κ ν :=
  match position with
  | none => { cache with oldest := target }
  | some position =>
      { cache with slots := cache.slots.modify position ({ · with newer := target }) }

/-- The cache with the entry at a position taken out of the order of use. -/
def unlink (cache : RecencyCache κ ν) (position : Nat) : RecencyCache κ ν :=
  match cache.slots[position]? with
  | none => cache
  | some slot => (cache.linkOlder slot.newer slot.older).linkNewer slot.older slot.newer

/-- The cache with an unlinked entry made the most recently used one. -/
def linkNewest (cache : RecencyCache κ ν) (position : Nat) : RecencyCache κ ν :=
  let cache :=
    { cache with
      slots := cache.slots.modify position ({ · with newer := none, older := cache.newest }) }
  let cache := cache.linkNewer cache.newest (some position)
  { cache with newest := some position }

/-- The cache with the entry at a position made the most recently used one. -/
def promote (cache : RecencyCache κ ν) (position : Nat) : RecencyCache κ ν :=
  if cache.newest = some position then cache
  else (cache.unlink position).linkNewest position

/-- The cache whose neighbours, ends and index know an entry that was moved to a position. -/
def relink (cache : RecencyCache κ ν) (position : Nat) : RecencyCache κ ν :=
  match cache.slots[position]? with
  | none => cache
  | some slot =>
      let cache := cache.linkOlder slot.newer (some position)
      let cache := cache.linkNewer slot.older (some position)
      { cache with index := cache.index.insert slot.key position }

/-- The cache without the entry at a position, whose gap the last entry of the array fills. -/
def removeAt (cache : RecencyCache κ ν) (position : Nat) : RecencyCache κ ν :=
  match cache.slots[position]? with
  | none => cache
  | some slot =>
      let cache := cache.unlink position
      match cache.slots.back? with
      | none => cache
      | some last =>
          let filled :=
            { cache with
              slots := (cache.slots.setIfInBounds position last).pop
              index := cache.index.erase slot.key }
          -- The neighbours of the entry that was moved still know it by its former position.
          if position + 1 = cache.slots.size then filled else filled.relink position

/-- The value of a key, which becomes the most recently used one. -/
def get (cache : RecencyCache κ ν) (key : κ) : Option ν × RecencyCache κ ν :=
  match cache.index[key]? with
  | none => (none, cache)
  | some position =>
      (cache.slots[position]?.map RecencySlot.value, cache.promote position)

/-- The value of a key; the order of use stays. -/
def peek? (cache : RecencyCache κ ν) (key : κ) : Option ν :=
  cache.index[key]?.bind fun position => cache.slots[position]?.map RecencySlot.value

/-- Whether a key has an entry; the order of use stays. -/
def contains (cache : RecencyCache κ ν) (key : κ) : Bool :=
  cache.index.contains key

/-- The cache without its least recently used entry. -/
def evict (cache : RecencyCache κ ν) : RecencyCache κ ν :=
  match cache.oldest with
  | none => cache
  | some position => cache.removeAt position

/-- The cache with one more entry, the most recently used one, whether or not there is room. -/
def push (cache : RecencyCache κ ν) (key : κ) (value : ν) : RecencyCache κ ν :=
  let position := cache.slots.size
  let cache :=
    { cache with
      slots := cache.slots.push { key, value, newer := none, older := none }
      index := cache.index.insert key position }
  cache.linkNewest position

/--
The cache with a key's value set, and the value that it had. The key becomes the most recently used
one; a new key makes the cache forget the least recently used entry when there is no room.
-/
def set (cache : RecencyCache κ ν) (key : κ) (value : ν) : Option ν × RecencyCache κ ν :=
  match cache.index[key]? with
  | some position =>
      let previous := cache.slots[position]?.map RecencySlot.value
      let cache := { cache with slots := cache.slots.modify position ({ · with value }) }
      (previous, cache.promote position)
  | none =>
      let cache := cache.push key value
      (none, if cache.capacity < cache.size then cache.evict else cache)

/-- The cache without a key, and the value that it had. -/
def remove (cache : RecencyCache κ ν) (key : κ) : Option ν × RecencyCache κ ν :=
  match cache.index[key]? with
  | none => (none, cache)
  | some position =>
      (cache.slots[position]?.map RecencySlot.value, cache.removeAt position)

def clear (cache : RecencyCache κ ν) : RecencyCache κ ν :=
  empty cache.capacity

def describe (cache : RecencyCache κ ν) : String :=
  s!"LruCache \x7b size: {cache.size}, max_size: {cache.capacity} \x7d"

end RecencyCache

end LocalizedText
