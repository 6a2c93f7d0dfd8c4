import LocalizedText.Cache.Recency
import LocalizedText.Number.Text
import LocalizedText.Text.Quoted

/-!
# Remembered results

The answers to requests are remembered under the kind of request, the locale, the key and what
stands for the parameters. The kinds are kept apart, so that the same key asked for in two ways has
two results. Requests that found an answer and requests that did not are counted.
-/

namespace LocalizedText

/-- The ways to ask for a key. -/
inductive LookupKind where
  | singular
  | plural
  | message
deriving DecidableEq, Hashable

/-- What a result is remembered under. -/
structure ResultKey where
  kind : LookupKind
  locale : String
  key : String
  /-- What stands for the parameters. -/
  fingerprint : String
deriving DecidableEq, Hashable

/-- The usage of a result cache. -/
structure ResultStats where
  size : Nat
  capacity : Nat
  hits : Nat
  misses : Nat
  /-- The share of requests that found an answer, in percent; zero before the first request. -/
  hitRate : Double
deriving DecidableEq

/-- A cache of results that counts how often it had the answer. -/
structure ResultCache where
  entries : RecencyCache ResultKey String
  hits : Nat := 0
  misses : Nat := 0

namespace ResultCache

/-- The number of results that are usually remembered. -/
def usualCapacity : Nat := 1000

def empty (capacity : Nat) : ResultCache :=
  { entries := .empty capacity }

/-- The result for a key, which counts as used; the request is counted. -/
def get (cache : ResultCache) (key : ResultKey) : Option String × ResultCache :=
  match cache.entries.get key with
  | (some text, entries) => (some text, { cache with entries, hits := cache.hits + 1 })
  | (none, entries) => (none, { cache with entries, misses := cache.misses + 1 })

def insert (cache : ResultCache) (key : ResultKey) (text : String) : ResultCache :=
  { cache with entries := (cache.entries.set key text).2 }

/-- The cache with all results forgotten; the counts stay. -/
def clear (cache : ResultCache) : ResultCache :=
  { cache with entries := cache.entries.clear }

/-- The cache with its counts set back. -/
def resetStats (cache : ResultCache) : ResultCache :=
  { cache with hits := 0, misses := 0 }

def size (cache : ResultCache) : Nat :=
  cache.entries.size

/-- The share of hits in percent. -/
def hitRate (hits misses : Nat) : Double :=
  if hits + misses = 0 then .zero
  else
    ((Double.ofNat hits).dividedBy (Double.ofNat (hits + misses))).times (Double.ofNat 100)

def stats (cache : ResultCache) : ResultStats where
  size := cache.size
  capacity := cache.entries.capacity
  hits := cache.hits
  misses := cache.misses
  hitRate := hitRate cache.hits cache.misses

def describe (cache : ResultCache) : String :=
  "TranslationCache \x7b entries: " ++ cache.entries.describe ++
    s!", hits: {cache.hits}, misses: {cache.misses} \x7d"

end ResultCache

def ResultStats.describe (stats : ResultStats) : String :=
  s!"CacheStats \x7b size: {stats.size}, max_size: {stats.capacity}, hits: {stats.hits}, " ++
    s!"misses: {stats.misses}, hit_rate: {stats.hitRate.canonicalText} \x7d"

end LocalizedText
