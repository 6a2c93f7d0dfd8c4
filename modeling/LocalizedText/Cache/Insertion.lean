import Std.Data.HashMap

/-!
# Caches that forget what was inserted first

An insertion cache finds its entries in a map and remembers the order in which their keys were
inserted. Reading changes nothing, and setting the value of a present key leaves its place.
-/

namespace LocalizedText

/-- A cache of at most `capacity` entries that forgets the one inserted first. -/
structure InsertionCache (κ ν : Type) [BEq κ] [Hashable κ] where
  entries : Std.HashMap κ ν
  /-- The keys, the one inserted first in front. -/
  order : List κ
  capacity : Nat

/-- The number of entries of a cache and how many it may hold. -/
structure CacheUsage where
  size : Nat
  capacity : Nat
deriving DecidableEq

namespace CacheUsage

def describe (usage : CacheUsage) : String :=
  s!"FifoStats \x7b size: {usage.size}, max_size: {usage.capacity} \x7d"

end CacheUsage

namespace InsertionCache

variable {κ ν : Type} [BEq κ] [Hashable κ]

def empty (capacity : Nat) : InsertionCache κ ν :=
  { entries := ∅, order := [], capacity }

def size (cache : InsertionCache κ ν) : Nat :=
  cache.entries.size

/-- The value of a key. -/
def get? (cache : InsertionCache κ ν) (key : κ) : Option ν :=
  cache.entries[key]?

def contains (cache : InsertionCache κ ν) (key : κ) : Bool :=
  cache.entries.contains key

/-- The entries, the one inserted first in front. -/
def toList (cache : InsertionCache κ ν) : List (κ × ν) :=
  cache.order.filterMap fun key => cache.entries[key]?.map (key, ·)

/-- The cache with its first entries forgotten until there is room for one more. -/
def makeRoom (cache : InsertionCache κ ν) : InsertionCache κ ν :=
  let surplus := cache.order.length + 1 - cache.capacity
  { cache with
    entries := (cache.order.take surplus).foldl (·.erase ·) cache.entries
    order := cache.order.drop surplus }

/--
The cache with a key's value set, and the value that it had. A new key is put last, and the first
ones are forgotten when there is no room; a cache without capacity takes none.
-/
def insert (cache : InsertionCache κ ν) (key : κ) (value : ν) : Option ν × InsertionCache κ ν :=
  match cache.entries[key]? with
  | some previous => (some previous, { cache with entries := cache.entries.insert key value })
  | none =>
      if cache.capacity = 0 then (none, cache)
      else
        let cache := cache.makeRoom
        (none,
          { cache with
            entries := cache.entries.insert key value
            order := cache.order ++ [key] })

def clear (cache : InsertionCache κ ν) : InsertionCache κ ν :=
  empty cache.capacity

def usage (cache : InsertionCache κ ν) : CacheUsage :=
  ⟨cache.size, cache.capacity⟩

def describe (cache : InsertionCache κ ν) : String :=
  s!"FifoCache \x7b size: {cache.size}, capacity: {cache.capacity} \x7d"

end InsertionCache

end LocalizedText
