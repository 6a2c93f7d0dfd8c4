import LocalizedText.Cache.Insertion
import LocalizedText.Proofs.Cache.RecencyList

/-!
# What caches remember

A cache is right about a relation between keys and values when every value that it has for a key
stands in the relation. No operation of a cache makes up a value: a cache stays right as long as
what is put into it is right.
-/

namespace LocalizedText

namespace RecencyCache

variable {κ ν : Type} [BEq κ] [LawfulBEq κ] [Hashable κ] {right : κ → ν → Prop}
  {cache : RecencyCache κ ν}

/-- Every pair that the cache holds stands in a relation. -/
def Remembers (cache : RecencyCache κ ν) (right : κ → ν → Prop) : Prop :=
  ∃ pairs, cache.Holds pairs ∧ pairs.length ≤ cache.capacity ∧ ∀ pair ∈ pairs, right pair.1 pair.2

omit [LawfulBEq κ] in
theorem remembers_empty (capacity : Nat) : (empty capacity : RecencyCache κ ν).Remembers right :=
  ⟨[], holds_empty capacity, Nat.zero_le _, by simp⟩

omit [LawfulBEq κ] in
/-- What is remembered is no more than the capacity. -/
theorem Remembers.size_le (remembers : cache.Remembers right) : cache.size ≤ cache.capacity := by
  rcases remembers with ⟨pairs, holds, bounded, -⟩
  rwa [holds.size_eq]

/-- A value that is got is right, and the cache stays right. -/
theorem Remembers.get (remembers : cache.Remembers right) (key : κ) :
    (∀ value, (cache.get key).1 = some value → right key value) ∧
      (cache.get key).2.Remembers right := by
  rcases remembers with ⟨pairs, holds, bounded, allRight⟩
  cases found : pairs.lookup key with
  | none =>
      rw [holds.get_missing found]
      exact ⟨by simp, pairs, holds, bounded, allRight⟩
  | some value =>
      rcases holds.get found with ⟨answer, held⟩
      rcases List.lookup_eq_some_iff.mp found with ⟨newer, older, split, _⟩
      have member : (key, value) ∈ pairs := by simp [split]
      rw [answer]
      refine ⟨?_, _, held, ?_, ?_⟩
      · rintro _ ⟨⟩
        exact allRight _ member
      · have shorter := length_without_lt found
        rw [capacity_get, List.length_cons]
        omega
      · intro pair pairMember
        rcases List.mem_cons.mp pairMember with rfl | kept
        · exact allRight _ member
        · exact allRight pair (List.mem_of_mem_eraseP kept)

/-- Setting a right value keeps the cache right. -/
theorem Remembers.set (remembers : cache.Remembers right) {key : κ} {value : ν}
    (isRight : right key value) : (cache.set key value).2.Remembers right := by
  rcases remembers with ⟨pairs, holds, bounded, allRight⟩
  refine ⟨_, (holds.set key value bounded).2, ?_, ?_⟩
  · rw [capacity_set]
    exact length_perform_le bounded (.set key value)
  · have moved : ∀ pair ∈ (key, value) :: RecencyList.without key pairs, right pair.1 pair.2 := by
      intro pair member
      rcases List.mem_cons.mp member with rfl | kept
      · exact isRight
      · exact allRight pair (List.mem_of_mem_eraseP kept)
    intro pair member
    split at member
    · exact moved pair (List.dropLast_subset _ member)
    · exact moved pair member

end RecencyCache

namespace InsertionCache

variable {κ ν : Type} [BEq κ] [LawfulBEq κ] [Hashable κ] {right : κ → ν → Prop}
  {cache : InsertionCache κ ν}

/-- Every value that the cache has for a key stands in a relation to it. -/
def Remembers (cache : InsertionCache κ ν) (right : κ → ν → Prop) : Prop :=
  ∀ key value, cache.get? key = some value → right key value

theorem remembers_empty (capacity : Nat) :
    (empty capacity : InsertionCache κ ν).Remembers right := by
  intro key value found
  simp [get?, empty] at found

theorem Remembers.makeRoom (remembers : cache.Remembers right) :
    cache.makeRoom.Remembers right := by
  have erased (keys : List κ) (entries : Std.HashMap κ ν) {key : κ} {value : ν}
      (found : (keys.foldl (·.erase ·) entries)[key]? = some value) :
      entries[key]? = some value := by
    induction keys generalizing entries with
    | nil => exact found
    | cons first rest inductionHypothesis =>
        have kept := inductionHypothesis _ found
        rw [Std.HashMap.getElem?_erase] at kept
        split at kept
        · cases kept
        · exact kept
  intro key value found
  exact remembers key value (erased _ _ found)

theorem Remembers.insert (remembers : cache.Remembers right) {key : κ} {value : ν}
    (isRight : right key value) : (cache.insert key value).2.Remembers right := by
  have inserted {entries : Std.HashMap κ ν}
      (kept : ∀ key value, entries[key]? = some value → right key value) {other : κ} {found : ν}
      (present : (entries.insert key value)[other]? = some found) : right other found := by
    rw [Std.HashMap.getElem?_insert] at present
    split at present
    · next same =>
        cases present
        rwa [← eq_of_beq same]
    · exact kept other found present
  unfold InsertionCache.insert
  split
  · intro other found present
    exact inserted remembers present
  · split
    · exact remembers
    · intro other found present
      exact inserted remembers.makeRoom present

end InsertionCache

end LocalizedText
