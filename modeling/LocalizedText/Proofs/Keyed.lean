import LocalizedText.Keyed
import Mathlib.Order.Defs.Unbundled
import Mathlib.Tactic.ByContra

/-!
# Sorting by key

Keys under a strict total order are sorted in one way only. So pairs with different keys give the
same sorted list in whichever order they are inserted.
-/

namespace LocalizedText

namespace Keyed

theorem lookup_eq_none_iff {κ α : Type} [BEq κ] [LawfulBEq κ] {key : κ} {pairs : List (κ × α)} :
    pairs.lookup key = none ↔ key ∉ pairs.map Prod.fst := by
  rw [List.lookup_eq_none_iff]
  constructor
  · intro different member
    rcases List.mem_map.mp member with ⟨pair, isPair, rfl⟩
    simpa using different pair isPair
  · intro absent pair isPair
    rw [bne_iff_ne]
    rintro rfl
    exact absent (List.mem_map_of_mem isPair)

/-- A key leads to what became of the value that it led to before. -/
theorem lookup_map {κ α β : Type} [BEq κ] (change : α → β) (key : κ) (pairs : List (κ × α)) :
    (pairs.map fun pair => (pair.1, change pair.2)).lookup key =
      (pairs.lookup key).map change := by
  induction pairs with
  | nil => rfl
  | cons pair rest inductionHypothesis =>
      rcases pair with ⟨first, value⟩
      simp only [List.map_cons, List.lookup_cons, inductionHypothesis]
      split <;> rfl

variable {κ α : Type} [LT κ] [DecidableLT κ] [DecidableEq κ]

/-- A key that is not there yet is added, and the other pairs stay. -/
theorem insert_perm {key : κ} {pairs : List (κ × α)} (value : α)
    (absent : ∀ pair ∈ pairs, key ≠ pair.1) :
    (insert key value pairs).Perm ((key, value) :: pairs) := by
  induction pairs with
  | nil => exact List.Perm.refl _
  | cons pair rest inductionHypothesis =>
      have others := inductionHypothesis fun other member =>
        absent other (List.mem_cons_of_mem _ member)
      unfold insert
      rw [if_neg (absent pair (List.mem_cons_self ..))]
      split
      · exact List.Perm.refl _
      · exact (others.cons pair).trans (List.Perm.swap _ _ rest)

omit [LT κ] [DecidableLT κ] in
theorem mem_of_lookup {key : κ} {value : α} {pairs : List (κ × α)}
    (found : pairs.lookup key = some value) : (key, value) ∈ pairs := by
  rcases List.lookup_eq_some_iff.mp found with ⟨before, after, rfl, -⟩
  simp

omit [LT κ] [DecidableLT κ] in
/-- Of keys that differ, each has the one value that stands with it. -/
theorem lookup_eq_some_iff {key : κ} {value : α} {pairs : List (κ × α)}
    (distinct : (pairs.map Prod.fst).Nodup) :
    pairs.lookup key = some value ↔ (key, value) ∈ pairs := by
  constructor
  · exact mem_of_lookup
  · intro member
    induction pairs with
    | nil => cases member
    | cons pair rest inductionHypothesis =>
        rcases List.nodup_cons.mp distinct with ⟨new, restDistinct⟩
        rcases List.mem_cons.mp member with rfl | later
        · simp
        · rw [lookup_cons_of_ne, inductionHypothesis restDistinct later]
          rintro rfl
          exact new (List.mem_map.mpr ⟨_, later, rfl⟩)

theorem mem_of_mem_insert {key : κ} {value : α} {pairs : List (κ × α)} {pair : κ × α}
    (member : pair ∈ insert key value pairs) : pair = (key, value) ∨ pair ∈ pairs := by
  induction pairs with
  | nil => simpa [insert] using member
  | cons first rest inductionHypothesis =>
      unfold insert at member
      split at member
      · simpa using member
      · split at member
        · rcases List.mem_cons.mp member with rfl | kept
          · exact Or.inl rfl
          · exact Or.inr (List.mem_cons_of_mem _ kept)
        · rcases List.mem_cons.mp member with rfl | later
          · exact Or.inr (List.mem_cons_self ..)
          · exact (inductionHypothesis later).imp id (List.mem_cons_of_mem _)

theorem mem_of_mem_foldl_insert {pairs sorted : List (κ × α)} {pair : κ × α}
    (member : pair ∈ pairs.foldl (fun sorted pair => insert pair.1 pair.2 sorted) sorted) :
    pair ∈ pairs ∨ pair ∈ sorted := by
  induction pairs generalizing sorted with
  | nil => exact Or.inr member
  | cons first rest inductionHypothesis =>
      rcases inductionHypothesis member with later | before
      · exact Or.inl (List.mem_cons_of_mem _ later)
      · rcases mem_of_mem_insert before with rfl | kept
        · exact Or.inl (List.mem_cons_self ..)
        · exact Or.inr kept

theorem mem_of_mem_ofList {pairs : List (κ × α)} {pair : κ × α} (member : pair ∈ ofList pairs) :
    pair ∈ pairs := by
  simpa using mem_of_mem_foldl_insert member

theorem mem_keys_insert {key other : κ} {value : α} {pairs : List (κ × α)} :
    other ∈ (insert key value pairs).map Prod.fst ↔ other = key ∨ other ∈ pairs.map Prod.fst := by
  induction pairs with
  | nil => simp [insert]
  | cons first rest inductionHypothesis =>
      unfold insert
      split
      · simp
      · split
        · next same => simp [← same]
        · rw [List.map_cons, List.mem_cons, inductionHypothesis, List.map_cons, List.mem_cons]
          exact or_left_comm

/-- Inserting pairs with new and different keys adds them all. -/
theorem foldl_insert_perm {pairs sorted : List (κ × α)}
    (distinct : ((pairs ++ sorted).map Prod.fst).Nodup) :
    (pairs.foldl (fun sorted pair => insert pair.1 pair.2 sorted) sorted).Perm
      (pairs ++ sorted) := by
  induction pairs generalizing sorted with
  | nil => exact List.Perm.refl _
  | cons pair pairs inductionHypothesis =>
      rw [List.cons_append, List.map_cons, List.nodup_cons] at distinct
      have absent : ∀ other ∈ sorted, pair.1 ≠ other.1 := by
        intro other member same
        exact distinct.1 (List.mem_map.mpr ⟨other, List.mem_append_right _ member, same.symm⟩)
      have added := (insert_perm pair.2 absent).append_left pairs
      have moved : (pairs ++ insert pair.1 pair.2 sorted).Perm (pair :: (pairs ++ sorted)) :=
        added.trans List.perm_middle
      have stillDistinct : ((pairs ++ insert pair.1 pair.2 sorted).map Prod.fst).Nodup := by
        rw [(moved.map Prod.fst).nodup_iff, List.map_cons, List.nodup_cons]
        exact distinct
      exact (inductionHypothesis stillDistinct).trans moved

section Ordered

variable [IsStrictTotalOrder κ (· < ·)]

/-- Setting the value of a key, new or not, keeps the order. -/
theorem IsSorted.insert {key : κ} {pairs : List (κ × α)} (sorted : IsSorted pairs) (value : α) :
    IsSorted (insert key value pairs) := by
  induction pairs with
  | nil => exact List.pairwise_singleton _ _
  | cons pair rest inductionHypothesis =>
      rcases List.pairwise_cons.mp sorted with ⟨first, tail⟩
      unfold Keyed.insert
      split
      · next smaller =>
          refine List.pairwise_cons.mpr ⟨?_, sorted⟩
          intro other member
          rcases List.mem_cons.mp member with rfl | member
          · exact smaller
          · exact IsTrans.trans _ _ _ smaller (first other member)
      · next notSmaller =>
          split
          · next same =>
              refine List.pairwise_cons.mpr ⟨?_, tail⟩
              intro other member
              simpa [same] using first other member
          · next different =>
              refine List.pairwise_cons.mpr ⟨?_, inductionHypothesis tail⟩
              intro other member
              rcases mem_of_mem_insert member with rfl | member
              · by_contra notGreater
                exact different (Std.Trichotomous.trichotomous _ _ notSmaller notGreater)
              · exact first other member

theorem IsSorted.foldl_insert {pairs sorted : List (κ × α)} (isSorted : IsSorted sorted) :
    IsSorted (pairs.foldl (fun sorted pair => Keyed.insert pair.1 pair.2 sorted) sorted) := by
  induction pairs generalizing sorted with
  | nil => exact isSorted
  | cons pair rest inductionHypothesis => exact inductionHypothesis (isSorted.insert pair.2)

/-- Pairs given in any order, with keys repeated or not, come out sorted. -/
theorem isSorted_ofList (pairs : List (κ × α)) : IsSorted (ofList pairs) :=
  IsSorted.foldl_insert List.Pairwise.nil

omit [DecidableLT κ] [DecidableEq κ] in
theorem IsSorted.eq_of_perm {left right : List (κ × α)} (leftSorted : IsSorted left)
    (rightSorted : IsSorted right) (same : left.Perm right) : left = right := by
  refine List.Perm.eq_of_pairwise ?_ leftSorted rightSorted same
  intro first second _ _ smaller greater
  exact absurd (IsTrans.trans _ _ _ smaller greater) (Std.Irrefl.irrefl _)

omit [DecidableLT κ] [DecidableEq κ] in
theorem IsSorted.nodup_keys {pairs : List (κ × α)} (sorted : IsSorted pairs) :
    (pairs.map Prod.fst).Nodup := by
  rw [List.Nodup, List.pairwise_map]
  refine sorted.imp ?_
  intro first second smaller same
  rw [same] at smaller
  exact absurd smaller (Std.Irrefl.irrefl _)

/-- Sorted pairs in any order are sorted again by inserting them. -/
theorem ofList_of_perm {pairs sorted : List (κ × α)} (isSorted : IsSorted sorted)
    (same : pairs.Perm sorted) : ofList pairs = sorted := by
  have distinct : ((pairs ++ []).map Prod.fst).Nodup := by
    rw [List.append_nil, (same.map Prod.fst).nodup_iff]
    exact isSorted.nodup_keys
  have all := foldl_insert_perm distinct
  rw [List.append_nil] at all
  exact (isSorted_ofList pairs).eq_of_perm isSorted (all.trans same)

/-- Setting a key to the value that it has changes nothing. -/
theorem IsSorted.insert_of_lookup {key : κ} {value : α} {pairs : List (κ × α)}
    (sorted : IsSorted pairs) (found : pairs.lookup key = some value) :
    Keyed.insert key value pairs = pairs := by
  induction pairs with
  | nil => cases found
  | cons pair rest inductionHypothesis =>
      rcases pair with ⟨first, old⟩
      rcases List.pairwise_cons.mp sorted with ⟨least, tail⟩
      by_cases same : key = first
      · subst same
        rw [List.lookup_cons_self, Option.some.injEq] at found
        simp [Keyed.insert, Std.Irrefl.irrefl, found]
      · rw [lookup_cons_of_ne same] at found
        have later : first < key := least _ (mem_of_lookup found)
        have notEarlier : ¬key < first := fun earlier =>
          Std.Irrefl.irrefl _ (IsTrans.trans _ _ _ earlier later)
        rw [Keyed.insert, if_neg notEarlier, if_neg same, inductionHypothesis tail found]

end Ordered

section Merging

variable {β : Type} {combine : Option α → β → α} {pairs : List (κ × α)}
  {incoming : List (κ × β)}

/-- The pairs with others merged in: what comes in under a key is combined with what was there. -/
def mergeWith (combine : Option α → β → α) (pairs : List (κ × α)) (incoming : List (κ × β)) :
    List (κ × α) :=
  incoming.foldl
    (fun merged pair => insert pair.1 (combine (merged.lookup pair.1) pair.2) merged) pairs

/-- Each key that comes in is combined once, and the others keep their values. -/
theorem lookup_mergeWith (distinct : (incoming.map Prod.fst).Nodup) (key : κ) :
    (mergeWith combine pairs incoming).lookup key =
      ((incoming.lookup key).map (combine (pairs.lookup key))).or (pairs.lookup key) := by
  induction incoming generalizing pairs with
  | nil => rfl
  | cons pair rest inductionHypothesis =>
      rcases pair with ⟨first, value⟩
      rcases List.nodup_cons.mp distinct with ⟨new, restDistinct⟩
      have step : mergeWith combine pairs ((first, value) :: rest) =
          mergeWith combine (insert first (combine (pairs.lookup first) value) pairs) rest := rfl
      rw [step, inductionHypothesis restDistinct]
      by_cases same : key = first
      · subst same
        simp [lookup_eq_none_iff.mpr new, lookup_insert_self]
      · rw [lookup_insert_of_ne same, lookup_cons_of_ne same]

/-- What holds of all values, and of all that is combined with such values, holds after merging. -/
theorem forall_mergeWith {holds : α → Prop} (existing : ∀ pair ∈ pairs, holds pair.2)
    (combined : ∀ pair ∈ incoming, ∀ value : Option α, (∀ old ∈ value, holds old) →
      holds (combine value pair.2)) :
    ∀ pair ∈ mergeWith combine pairs incoming, holds pair.2 := by
  induction incoming generalizing pairs with
  | nil => exact existing
  | cons first rest inductionHypothesis =>
      apply inductionHypothesis
      · intro pair member
        rcases mem_of_mem_insert member with rfl | kept
        · apply combined first List.mem_cons_self
          intro old found
          exact existing (first.1, old) (mem_of_lookup found)
        · exact existing pair kept
      · intro pair member
        exact combined pair (List.mem_cons_of_mem _ member)

variable [IsStrictTotalOrder κ (· < ·)]

theorem IsSorted.mergeWith (sorted : IsSorted pairs) :
    IsSorted (mergeWith combine pairs incoming) := by
  induction incoming generalizing pairs with
  | nil => exact sorted
  | cons first rest inductionHypothesis => exact inductionHypothesis (sorted.insert _)

/-- Merging changes nothing if combining changes no value. -/
theorem IsSorted.mergeWith_eq_self (sorted : IsSorted pairs)
    (unchanged : ∀ pair ∈ incoming, ∃ value, pairs.lookup pair.1 = some value ∧
      combine (some value) pair.2 = value) :
    Keyed.mergeWith combine pairs incoming = pairs := by
  induction incoming with
  | nil => rfl
  | cons first rest inductionHypothesis =>
      rcases unchanged first List.mem_cons_self with ⟨value, found, same⟩
      have kept : Keyed.insert first.1 (combine (pairs.lookup first.1) first.2) pairs = pairs := by
        rw [found, same]
        exact sorted.insert_of_lookup found
      have others := inductionHypothesis fun pair member =>
        unchanged pair (List.mem_cons_of_mem _ member)
      unfold Keyed.mergeWith at others ⊢
      rw [List.foldl_cons, kept, others]

end Merging

end Keyed

end LocalizedText
