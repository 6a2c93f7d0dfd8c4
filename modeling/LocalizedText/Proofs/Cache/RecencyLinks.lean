import LocalizedText.Cache.Recency
import Mathlib.Data.List.Chain
import Mathlib.Data.List.Infix
import Mathlib.Data.List.Nodup
import Mathlib.Data.Option.Basic

/-!
# The links of a recency cache

The neighbours of the entries and the two ends of the cache form one circle. It goes from the place
outside of the cache, written `none`, to the newest entry, along the older neighbours to the oldest
entry, and back to the place outside. Seen like this the ends need no care of their own: setting an
older neighbour or the newest entry is one operation, and so is setting a newer neighbour or the
oldest entry.

A cache is ordered by a list of positions when the circle goes through them in that order. Taking an
entry out, putting one in front, and moving one to another position are replacements of a stretch of
the circle; what lies on the two sides of the stretch stays.
-/

namespace LocalizedText

namespace RecencyCache

variable {κ ν : Type} [BEq κ] [Hashable κ]

/-- The place that follows a place towards the older entries. -/
def olderOf (cache : RecencyCache κ ν) : Option Nat → Option Nat
  | none => cache.newest
  | some position => cache.slots[position]?.bind RecencySlot.older

/-- The place that follows a place towards the newer entries. -/
def newerOf (cache : RecencyCache κ ν) : Option Nat → Option Nat
  | none => cache.oldest
  | some position => cache.slots[position]?.bind RecencySlot.newer

/-- The place is outside of the cache or a position in it. -/
def HasPlace (cache : RecencyCache κ ν) : Option Nat → Prop
  | none => True
  | some position => position < cache.slots.size

@[simp]
theorem hasPlace_none (cache : RecencyCache κ ν) : cache.HasPlace none :=
  trivial

/-- Two places follow each other on the circle. -/
def Adjacent (cache : RecencyCache κ ν) (newer older : Option Nat) : Prop :=
  cache.olderOf newer = older ∧ cache.newerOf older = newer

/-- The key and the value at a position. -/
def entryAt (cache : RecencyCache κ ν) (position : Nat) : Option (κ × ν) :=
  cache.slots[position]?.map fun slot => (slot.key, slot.value)

/-- The places that are passed on the way through some newer positions. -/
def placesThrough (newer : List Nat) : List (Option Nat) :=
  none :: newer.map some

/-- The places that are passed on the way from some older positions back. -/
def placesFrom (older : List Nat) : List (Option Nat) :=
  older.map some ++ [none]

/-- The places of an order, between the place outside and itself. -/
def circle (order : List Nat) : List (Option Nat) :=
  none :: placesFrom order

/-- The circle goes through the positions from the newest entry to the oldest. -/
structure IsLinked (cache : RecencyCache κ ν) (order : List Nat) : Prop where
  chain : (circle order).IsChain cache.Adjacent
  nodup : order.Nodup
  inside : ∀ position ∈ order, position < cache.slots.size

section Setting

variable (cache : RecencyCache κ ν) (place target other : Option Nat)

theorem olderOf_linkOlder (known : cache.HasPlace place) :
    (cache.linkOlder place target).olderOf other =
      if other = place then target else cache.olderOf other := by
  cases place with
  | none => cases other <;> simp [linkOlder, olderOf]
  | some position =>
      have inside : position < cache.slots.size := known
      cases other with
      | none => simp [linkOlder, olderOf]
      | some wanted =>
          simp only [linkOlder, olderOf, Array.getElem?_modify, Option.some.injEq]
          by_cases same : wanted = position
          · subst same
            simp [inside]
          · simp [same, Ne.symm same]

@[simp]
theorem newerOf_linkOlder : (cache.linkOlder place target).newerOf other = cache.newerOf other := by
  cases place with
  | none => cases other <;> rfl
  | some position =>
      cases other with
      | none => rfl
      | some wanted =>
          simp only [linkOlder, newerOf, Array.getElem?_modify]
          split <;> cases cache.slots[wanted]? <;> rfl

theorem newerOf_linkNewer (known : cache.HasPlace place) :
    (cache.linkNewer place target).newerOf other =
      if other = place then target else cache.newerOf other := by
  cases place with
  | none => cases other <;> simp [linkNewer, newerOf]
  | some position =>
      have inside : position < cache.slots.size := known
      cases other with
      | none => simp [linkNewer, newerOf]
      | some wanted =>
          simp only [linkNewer, newerOf, Array.getElem?_modify, Option.some.injEq]
          by_cases same : wanted = position
          · subst same
            simp [inside]
          · simp [same, Ne.symm same]

@[simp]
theorem olderOf_linkNewer : (cache.linkNewer place target).olderOf other = cache.olderOf other := by
  cases place with
  | none => cases other <;> rfl
  | some position =>
      cases other with
      | none => rfl
      | some wanted =>
          simp only [linkNewer, olderOf, Array.getElem?_modify]
          split <;> cases cache.slots[wanted]? <;> rfl

@[simp]
theorem size_linkOlder : (cache.linkOlder place target).slots.size = cache.slots.size := by
  cases place <;> simp [linkOlder]

@[simp]
theorem size_linkNewer : (cache.linkNewer place target).slots.size = cache.slots.size := by
  cases place <;> simp [linkNewer]

@[simp]
theorem hasPlace_linkOlder :
    (cache.linkOlder place target).HasPlace other ↔ cache.HasPlace other := by
  cases other <;> simp [HasPlace]

@[simp]
theorem hasPlace_linkNewer :
    (cache.linkNewer place target).HasPlace other ↔ cache.HasPlace other := by
  cases other <;> simp [HasPlace]

@[simp]
theorem index_linkOlder : (cache.linkOlder place target).index = cache.index := by
  cases place <;> rfl

@[simp]
theorem index_linkNewer : (cache.linkNewer place target).index = cache.index := by
  cases place <;> rfl

@[simp]
theorem capacity_linkOlder : (cache.linkOlder place target).capacity = cache.capacity := by
  cases place <;> rfl

@[simp]
theorem capacity_linkNewer : (cache.linkNewer place target).capacity = cache.capacity := by
  cases place <;> rfl

@[simp]
theorem entryAt_linkOlder (position : Nat) :
    (cache.linkOlder place target).entryAt position = cache.entryAt position := by
  cases place with
  | none => rfl
  | some changed =>
      simp only [linkOlder, entryAt, Array.getElem?_modify]
      split <;> cases cache.slots[position]? <;> rfl

@[simp]
theorem entryAt_linkNewer (position : Nat) :
    (cache.linkNewer place target).entryAt position = cache.entryAt position := by
  cases place with
  | none => rfl
  | some changed =>
      simp only [linkNewer, entryAt, Array.getElem?_modify]
      split <;> cases cache.slots[position]? <;> rfl

end Setting

section Places

variable {newer older : List Nat} {place : Option Nat}

theorem mem_circle {order : List Nat} :
    place ∈ circle order ↔ place = none ∨ ∃ position ∈ order, some position = place := by
  simp only [circle, placesFrom, List.mem_cons, List.mem_append, List.mem_map, List.not_mem_nil,
    or_false]
  constructor
  · rintro (outside | member | outside)
    · exact Or.inl outside
    · exact Or.inr member
    · exact Or.inl outside
  · rintro (outside | member)
    · exact Or.inl outside
    · exact Or.inr (Or.inl member)

theorem circle_append : circle (newer ++ older) = placesThrough newer ++ placesFrom older := by
  simp [circle, placesThrough, placesFrom]

theorem placesThrough_eq (newer : List Nat) :
    placesThrough newer = (placesThrough newer).dropLast ++ [newer.getLast?] := by
  rcases List.eq_nil_or_concat newer with rfl | ⟨rest, last, rfl⟩
  · rfl
  · rw [List.concat_eq_append, placesThrough, List.map_append, List.map_singleton,
      ← List.cons_append, List.dropLast_concat, List.getLast?_concat]

theorem placesFrom_eq (older : List Nat) :
    placesFrom older = older.head? :: (placesFrom older).tail := by
  cases older <;> rfl

theorem nodup_placesThrough (nodup : newer.Nodup) : (placesThrough newer).Nodup := by
  simp [placesThrough, List.nodup_map_iff (Option.some_injective Nat), nodup]

theorem nodup_placesFrom (nodup : older.Nodup) : (placesFrom older).Nodup := by
  simp [placesFrom, List.nodup_append, List.nodup_map_iff (Option.some_injective Nat), nodup]

end Places

/-- A stretch of the circle stays one when the links along it stay. -/
theorem isChain_of_agree {before after : RecencyCache κ ν} {places : List (Option Nat)}
    (chain : places.IsChain before.Adjacent)
    (older : ∀ place ∈ places.dropLast, after.olderOf place = before.olderOf place)
    (newer : ∀ place ∈ places.tail, after.newerOf place = before.newerOf place) :
    places.IsChain after.Adjacent := by
  induction places with
  | nil => exact List.isChain_nil
  | cons first rest ih =>
      cases rest with
      | nil => exact List.isChain_singleton first
      | cons second rest =>
          rw [List.isChain_cons_cons] at chain ⊢
          have adjacent := chain.1
          refine ⟨⟨?_, ?_⟩, ih chain.2 ?_ ?_⟩
          · rw [older first (by simp)]
            exact adjacent.1
          · rw [newer second (by simp)]
            exact adjacent.2
          · intro place place_mem
            exact older place (List.mem_cons_of_mem first place_mem)
          · intro place place_mem
            exact newer place (List.mem_cons_of_mem second place_mem)

theorem olderOf_of_slots {before after : RecencyCache κ ν} {order : List Nat} {place : Option Nat}
    (newest : after.newest = before.newest)
    (kept : ∀ position ∈ order, after.slots[position]? = before.slots[position]?)
    (member : place ∈ circle order) : after.olderOf place = before.olderOf place := by
  rcases mem_circle.mp member with rfl | ⟨position, present, rfl⟩
  · exact newest
  · simp only [olderOf, kept position present]

theorem newerOf_of_slots {before after : RecencyCache κ ν} {order : List Nat} {place : Option Nat}
    (oldest : after.oldest = before.oldest)
    (kept : ∀ position ∈ order, after.slots[position]? = before.slots[position]?)
    (member : place ∈ circle order) : after.newerOf place = before.newerOf place := by
  rcases mem_circle.mp member with rfl | ⟨position, present, rfl⟩
  · exact oldest
  · simp only [newerOf, kept position present]

/-- Only the slots of an order and the two ends matter for it. -/
theorem IsLinked.of_slots {before after : RecencyCache κ ν} {order : List Nat}
    (linked : before.IsLinked order) (newest : after.newest = before.newest)
    (oldest : after.oldest = before.oldest)
    (kept : ∀ position ∈ order, after.slots[position]? = before.slots[position]?) :
    after.IsLinked order := by
  refine ⟨isChain_of_agree linked.chain ?_ ?_, linked.nodup, ?_⟩
  · intro place member
    exact olderOf_of_slots newest kept (List.mem_of_mem_dropLast member)
  · intro place member
    exact newerOf_of_slots oldest kept (List.mem_of_mem_tail member)
  · intro position member
    have present := kept position member
    rw [Array.getElem?_eq_getElem (linked.inside position member)] at present
    exact (Array.getElem?_eq_some_iff.mp present).1

/--
A stretch of the circle is replaced: when only the links into and out of the stretch change, and the
new stretch is linked to its neighbours, then the circle goes through it in place of the old one.
-/
theorem IsLinked.replace {before after : RecencyCache κ ν} {newer old middle older : List Nat}
    (linked : before.IsLinked (newer ++ old ++ older))
    (olderKept : ∀ place ∈ circle (newer ++ older), place ≠ newer.getLast? →
      after.olderOf place = before.olderOf place)
    (newerKept : ∀ place ∈ circle (newer ++ older), place ≠ older.head? →
      after.newerOf place = before.newerOf place)
    (middleChain : (newer.getLast? :: (middle.map some ++ [older.head?])).IsChain after.Adjacent)
    (nodup : (newer ++ middle ++ older).Nodup)
    (inside : ∀ position ∈ newer ++ middle ++ older, position < after.slots.size) :
    after.IsLinked (newer ++ middle ++ older) := by
  obtain ⟨newerNodup, olderNodup, apart⟩ :
      newer.Nodup ∧ older.Nodup ∧ ∀ position ∈ newer, position ∉ older := by
    simp only [List.nodup_append, List.mem_append] at nodup
    grind
  have chain := linked.chain
  rw [List.append_assoc, circle_append] at chain
  have frontChain := chain.left_of_append
  have backChain : (placesFrom older).IsChain before.Adjacent := by
    have whole := chain.right_of_append
    rw [placesFrom, List.map_append, List.append_assoc] at whole
    exact whole.right_of_append
  have throughMem : ∀ place ∈ placesThrough newer, place ∈ circle (newer ++ older) := by
    intro place place_mem
    rw [circle_append]
    exact List.mem_append_left _ place_mem
  have fromMem : ∀ place ∈ placesFrom older, place ∈ circle (newer ++ older) := by
    intro place place_mem
    rw [circle_append]
    exact List.mem_append_right _ place_mem
  have frontKept : (placesThrough newer).IsChain after.Adjacent := by
    apply isChain_of_agree frontChain
    · intro place place_mem
      apply olderKept place (throughMem place (List.mem_of_mem_dropLast place_mem))
      have parts := nodup_placesThrough newerNodup
      rw [placesThrough_eq, List.nodup_append] at parts
      exact parts.2.2 place place_mem _ (List.mem_singleton_self _)
    · intro place place_mem
      apply newerKept place (throughMem place (List.mem_of_mem_tail place_mem))
      rintro rfl
      obtain ⟨position, position_mem, is_head⟩ := List.mem_map.mp place_mem
      exact apart position position_mem (List.mem_of_head? is_head.symm)
  have backKept : (placesFrom older).IsChain after.Adjacent := by
    apply isChain_of_agree backChain
    · intro place place_mem
      apply olderKept place (fromMem place (List.mem_of_mem_dropLast place_mem))
      rintro rfl
      rw [placesFrom, List.dropLast_concat] at place_mem
      obtain ⟨position, position_mem, is_last⟩ := List.mem_map.mp place_mem
      exact apart position (List.mem_of_getLast? is_last.symm) position_mem
    · intro place place_mem
      apply newerKept place (fromMem place (List.mem_of_mem_tail place_mem))
      have parts := nodup_placesFrom olderNodup
      rw [placesFrom_eq, List.nodup_cons] at parts
      rintro rfl
      exact parts.1 place_mem
  -- The circle is put together again from the two stretches that stay and the new one.
  refine ⟨?_, nodup, inside⟩
  rw [List.append_assoc, circle_append, placesFrom, List.map_append, List.append_assoc,
    ← placesFrom, placesThrough_eq, placesFrom_eq, List.append_assoc, List.singleton_append,
    List.isChain_split]
  rw [placesThrough_eq] at frontKept
  rw [placesFrom_eq] at backKept
  refine ⟨frontKept, ?_⟩
  rw [← List.cons_append, List.isChain_split]
  exact ⟨middleChain, backKept⟩

/-- An entry of a linked cache knows its neighbours in the order. -/
theorem IsLinked.exists_slot {cache : RecencyCache κ ν} {newer older : List Nat} {position : Nat}
    (linked : cache.IsLinked (newer ++ position :: older)) :
    ∃ slot, cache.slots[position]? = some slot ∧ slot.newer = newer.getLast? ∧
      slot.older = older.head? := by
  have inside := linked.inside position (by simp)
  have chain := linked.chain
  rw [circle_append, placesThrough_eq, List.append_assoc, List.singleton_append,
    List.isChain_split, placesFrom, List.map_cons, List.cons_append, ← placesFrom,
    placesFrom_eq older, List.isChain_cons_cons, List.isChain_cons_cons] at chain
  have before := chain.2.1
  have after := chain.2.2.1
  refine ⟨cache.slots[position], Array.getElem?_eq_getElem inside, ?_, ?_⟩
  · simpa [newerOf, inside] using before.2
  · simpa [olderOf, inside] using after.1

theorem IsLinked.links_eq {cache : RecencyCache κ ν} {newer older : List Nat} {position : Nat}
    {slot : RecencySlot κ ν} (linked : cache.IsLinked (newer ++ position :: older))
    (found : cache.slots[position]? = some slot) :
    slot.newer = newer.getLast? ∧ slot.older = older.head? := by
  rcases linked.exists_slot with ⟨same, present, links⟩
  rw [found] at present
  cases present
  exact links

section Relinking

variable {cache : RecencyCache κ ν} {newer older : List Nat} {position : Nat}

theorem IsLinked.unlink_eq (linked : cache.IsLinked (newer ++ position :: older)) :
    cache.unlink position =
      (cache.linkOlder newer.getLast? older.head?).linkNewer older.head? newer.getLast? := by
  rcases linked.exists_slot with ⟨slot, found, newerEq, olderEq⟩
  simp only [unlink, found, newerEq, olderEq]

theorem IsLinked.hasPlace_getLast? {order : List Nat} (linked : cache.IsLinked order)
    (part : ∀ position ∈ newer, position ∈ order) : cache.HasPlace newer.getLast? := by
  cases last : newer.getLast? with
  | none => trivial
  | some position => exact linked.inside position (part position (List.mem_of_getLast? last))

theorem IsLinked.hasPlace_head? {order : List Nat} (linked : cache.IsLinked order)
    (part : ∀ position ∈ older, position ∈ order) : cache.HasPlace older.head? := by
  cases first : older.head? with
  | none => trivial
  | some position => exact linked.inside position (part position (List.mem_of_head? first))

/-- Taking an entry out closes the order around it. -/
theorem IsLinked.unlink (linked : cache.IsLinked (newer ++ position :: older)) :
    (cache.unlink position).IsLinked (newer ++ older) := by
  have newerPlace : cache.HasPlace newer.getLast? := linked.hasPlace_getLast? (by simp_all)
  have olderPlace : cache.HasPlace older.head? := linked.hasPlace_head? (by simp_all)
  have olderPlace' : (cache.linkOlder newer.getLast? older.head?).HasPlace older.head? := by
    simpa using olderPlace
  have nodup : (newer ++ older).Nodup := by
    have := linked.nodup
    simp only [List.nodup_append, List.nodup_cons, List.mem_cons] at this ⊢
    grind
  have replaced : (cache.unlink position).IsLinked (newer ++ [] ++ older) := by
    have whole : cache.IsLinked (newer ++ [position] ++ older) := by simpa using linked
    rw [linked.unlink_eq]
    apply IsLinked.replace whole
    · intro place _ different
      simp [olderOf_linkOlder _ _ _ _ newerPlace, different]
    · intro place _ different
      simp [newerOf_linkNewer _ _ _ _ olderPlace', different]
    · simp [Adjacent, olderOf_linkOlder _ _ _ _ newerPlace, newerOf_linkNewer _ _ _ _ olderPlace']
    · simpa using nodup
    · intro other other_mem
      simpa using linked.inside other (by simp at other_mem ⊢; grind)
  simpa using replaced

theorem linkNewest_eq (cache : RecencyCache κ ν) (position : Nat) :
    cache.linkNewest position =
      (((cache.linkOlder (some position) cache.newest).linkNewer (some position) none).linkNewer
        cache.newest (some position)).linkOlder none (some position) := by
  have slots : cache.slots.modify position ({ · with newer := none, older := cache.newest }) =
      (cache.slots.modify position ({ · with older := cache.newest })).modify position
        ({ · with newer := none }) := by
    apply Array.ext_getElem?
    intro other
    simp only [Array.getElem?_modify]
    split <;> cases cache.slots[other]? <;> rfl
  simp only [linkNewest, slots, linkOlder, linkNewer]

theorem IsLinked.newest_eq {order : List Nat} (linked : cache.IsLinked order) :
    cache.newest = order.head? := by
  have chain := linked.chain
  rw [circle, placesFrom_eq, List.isChain_cons_cons] at chain
  exact chain.1.1

theorem IsLinked.oldest_eq {order : List Nat} (linked : cache.IsLinked order) :
    cache.oldest = order.getLast? := by
  have chain := linked.chain
  rw [← List.append_nil order, circle_append, placesThrough_eq, List.append_assoc,
    List.singleton_append, List.isChain_split] at chain
  have closing := chain.2
  simp only [placesFrom, List.map_nil, List.nil_append, List.isChain_pair] at closing
  exact closing.2

/-- Making an unlinked entry the newest one puts it in front of the order. -/
theorem IsLinked.linkNewest {order : List Nat} (linked : cache.IsLinked order)
    (inside : position < cache.slots.size) (fresh : position ∉ order) :
    (cache.linkNewest position).IsLinked (position :: order) := by
  have newestPlace : cache.HasPlace cache.newest := by
    rw [linked.newest_eq]
    exact linked.hasPlace_head? (by simp)
  have notNewest : cache.newest ≠ some position := by
    rw [linked.newest_eq]
    intro first
    exact fresh (List.mem_of_head? first)
  have positionPlace : cache.HasPlace (some position) := inside
  have older (place : Option Nat) : (cache.linkNewest position).olderOf place =
      if place = none then some position
      else if place = some position then cache.newest else cache.olderOf place := by
    rw [linkNewest_eq, olderOf_linkOlder _ _ _ _ (hasPlace_none _), olderOf_linkNewer,
      olderOf_linkNewer, olderOf_linkOlder _ _ _ _ positionPlace]
  have newerEq (place : Option Nat) : (cache.linkNewest position).newerOf place =
      if place = cache.newest then some position
      else if place = some position then none else cache.newerOf place := by
    rw [linkNewest_eq, newerOf_linkOlder, newerOf_linkNewer, newerOf_linkNewer, newerOf_linkOlder]
    · simpa using positionPlace
    · simpa using newestPlace
  have other : ∀ place ∈ circle order, place ≠ some position := by
    rintro place member rfl
    rcases mem_circle.mp member with outside | ⟨_, present, same⟩
    · cases outside
    · cases same
      exact fresh present
  have replaced : (cache.linkNewest position).IsLinked ([] ++ [position] ++ order) := by
    have whole : cache.IsLinked ([] ++ [] ++ order) := linked
    apply IsLinked.replace whole
    · intro place member different
      have other := other place member
      simp only [List.getLast?_nil] at different
      simp [older, different, other]
    · intro place member different
      have other := other place member
      rw [← linked.newest_eq] at different
      simp [newerEq, different, other]
    · simp [Adjacent, older, newerEq, ← linked.newest_eq, notNewest.symm]
    · simpa [linked.nodup] using fresh
    · intro other member
      rw [linkNewest_eq]
      simp only [size_linkOlder, size_linkNewer]
      simp only [List.nil_append, List.singleton_append, List.mem_cons] at member
      rcases member with rfl | member
      · exact inside
      · exact linked.inside other member
  simpa using replaced

/-- Using an entry moves it to the front of the order. -/
theorem IsLinked.promote (linked : cache.IsLinked (newer ++ position :: older)) :
    (cache.promote position).IsLinked (position :: (newer ++ older)) := by
  have nodup := linked.nodup
  unfold RecencyCache.promote
  split
  · next newest =>
      rw [linked.newest_eq] at newest
      cases newer with
      | nil => simpa using linked
      | cons first rest =>
          simp only [List.cons_append, List.head?_cons, Option.some.injEq] at newest
          subst newest
          simp at nodup
  · apply linked.unlink.linkNewest
    · rw [linked.unlink_eq]
      simpa using linked.inside position (by simp)
    · rw [List.nodup_append, List.nodup_cons] at nodup
      simp only [List.mem_append, List.mem_cons] at nodup ⊢
      grind

theorem olderOf_relink {slot : RecencySlot κ ν} (found : cache.slots[position]? = some slot)
    (known : cache.HasPlace slot.newer) (place : Option Nat) :
    (cache.relink position).olderOf place =
      if place = slot.newer then some position else cache.olderOf place := by
  have links : (cache.relink position).olderOf place =
      ((cache.linkOlder slot.newer (some position)).linkNewer slot.older
        (some position)).olderOf place := by
    cases place <;> simp only [relink, found] <;> rfl
  rw [links, olderOf_linkNewer, olderOf_linkOlder _ _ _ _ known]

theorem newerOf_relink {slot : RecencySlot κ ν} (found : cache.slots[position]? = some slot)
    (known : cache.HasPlace slot.older) (place : Option Nat) :
    (cache.relink position).newerOf place =
      if place = slot.older then some position else cache.newerOf place := by
  have links : (cache.relink position).newerOf place =
      ((cache.linkOlder slot.newer (some position)).linkNewer slot.older
        (some position)).newerOf place := by
    cases place <;> simp only [relink, found] <;> rfl
  have known' : (cache.linkOlder slot.newer (some position)).HasPlace slot.older := by
    simpa using known
  rw [links, newerOf_linkNewer _ _ _ _ known', newerOf_linkOlder]

@[simp]
theorem size_relink (cache : RecencyCache κ ν) (position : Nat) :
    (cache.relink position).slots.size = cache.slots.size := by
  unfold relink
  split <;> simp

end Relinking

/-- The cache whose last slot fills the gap at a position; nothing is linked anew. -/
def fillGap (cache : RecencyCache κ ν) (position : Nat) (last : RecencySlot κ ν) :
    RecencyCache κ ν :=
  { cache with slots := (cache.slots.setIfInBounds position last).pop }

section Filling

variable {cache : RecencyCache κ ν} {newer older : List Nat} {position : Nat}
  {last : RecencySlot κ ν}

theorem size_fillGap : (cache.fillGap position last).slots.size = cache.slots.size - 1 := by
  simp [fillGap]

theorem getElem?_fillGap (inside : position < cache.slots.size) (other : Nat) :
    (cache.fillGap position last).slots[other]? =
      if other + 1 < cache.slots.size then
        if other = position then some last else cache.slots[other]?
      else none := by
  simp only [fillGap, Array.getElem?_pop, Array.size_setIfInBounds, Array.getElem?_setIfInBounds]
  grind

theorem IsLinked.fillGap_end {order : List Nat} (linked : cache.IsLinked order)
    (fresh : position ∉ order) (atEnd : position + 1 = cache.slots.size) :
    (cache.fillGap position last).IsLinked order := by
  have inside : position < cache.slots.size := by omega
  have before (other : Nat) (member : other ∈ order) : other + 1 < cache.slots.size := by
    have := linked.inside other member
    have different : other ≠ position := by
      rintro rfl
      exact fresh member
    omega
  refine linked.of_slots (by rfl) (by rfl) ?_
  intro other member
  have different : other ≠ position := by
    rintro rfl
    exact fresh member
  simp [getElem?_fillGap inside, before other member, different]

/-- The other positions of an order are before the last one. -/
theorem IsLinked.lt_last {other : Nat}
    (linked : cache.IsLinked (newer ++ (cache.slots.size - 1) :: older))
    (member : other ∈ newer ++ older) : other + 1 < cache.slots.size := by
  have bound := linked.inside other (by simp at member ⊢; grind)
  have nodup := linked.nodup
  simp only [List.nodup_append, List.nodup_cons, List.mem_cons] at nodup
  simp only [List.mem_append] at member
  grind

/-- The neighbours of the last position are still there when its slot was moved. -/
theorem IsLinked.hasPlace_fillGap
    (linked : cache.IsLinked (newer ++ (cache.slots.size - 1) :: older)) :
    (cache.fillGap position last).HasPlace newer.getLast? ∧
      (cache.fillGap position last).HasPlace older.head? := by
  have sides (other : Nat) (member : other ∈ newer ++ older) : other < cache.slots.size - 1 :=
    Nat.lt_sub_of_add_lt (linked.lt_last member)
  constructor
  · cases final : newer.getLast? with
    | none => trivial
    | some other =>
        simp only [HasPlace, size_fillGap]
        exact sides other (List.mem_append_left _ (List.mem_of_getLast? final))
  · cases first : older.head? with
    | none => trivial
    | some other =>
        simp only [HasPlace, size_fillGap]
        exact sides other (List.mem_append_right _ (List.mem_of_head? first))

/-- An entry that was moved into a gap takes the place of the last position in the order. -/
theorem IsLinked.relink_fillGap
    (linked : cache.IsLinked (newer ++ (cache.slots.size - 1) :: older))
    (fresh : position ∉ newer ++ (cache.slots.size - 1) :: older)
    (before : position + 1 < cache.slots.size)
    (isLast : cache.slots[cache.slots.size - 1]? = some last) :
    ((cache.fillGap position last).relink position).IsLinked (newer ++ position :: older) := by
  have inside : position < cache.slots.size := by omega
  have filled : (cache.fillGap position last).slots[position]? = some last := by
    simp [getElem?_fillGap inside, before]
  rcases linked.links_eq isLast with ⟨newerEq, olderEq⟩
  have nodup := linked.nodup
  have sides (other : Nat) (member : other ∈ newer ++ older) :
      other + 1 < cache.slots.size ∧ other ≠ position := by
    refine ⟨linked.lt_last member, ?_⟩
    simp only [List.mem_append, List.mem_cons] at fresh member
    grind
  have kept (other : Nat) (member : other ∈ newer ++ older) :
      (cache.fillGap position last).slots[other]? = cache.slots[other]? := by
    simp [getElem?_fillGap inside, sides other member]
  obtain ⟨newerPlace, olderPlace⟩ : (cache.fillGap position last).HasPlace newer.getLast? ∧
      (cache.fillGap position last).HasPlace older.head? := linked.hasPlace_fillGap
  -- Of the links between the others, only those that led to the last position have changed.
  have olderOf_moved (place : Option Nat) :
      ((cache.fillGap position last).relink position).olderOf place =
        if place = newer.getLast? then some position
        else (cache.fillGap position last).olderOf place := by
    rw [olderOf_relink filled (by rwa [newerEq]), newerEq]
  have newerOf_moved (place : Option Nat) :
      ((cache.fillGap position last).relink position).newerOf place =
        if place = older.head? then some position
        else (cache.fillGap position last).newerOf place := by
    rw [newerOf_relink filled (by rwa [olderEq]), olderEq]
  have replaced : ((cache.fillGap position last).relink position).IsLinked
      (newer ++ [position] ++ older) := by
    have whole : cache.IsLinked (newer ++ [cache.slots.size - 1] ++ older) := by
      simpa using linked
    apply IsLinked.replace whole
    · intro place member different
      rw [olderOf_moved, if_neg different, olderOf_of_slots (by rfl) kept member]
    · intro place member different
      rw [newerOf_moved, if_neg different, newerOf_of_slots (by rfl) kept member]
    · have notNewer : some position ≠ newer.getLast? := by
        intro same
        have := sides position (List.mem_append_left _ (List.mem_of_getLast? same.symm))
        exact this.2 rfl
      have notOlder : some position ≠ older.head? := by
        intro same
        have := sides position (List.mem_append_right _ (List.mem_of_head? same.symm))
        exact this.2 rfl
      have next : (cache.fillGap position last).olderOf (some position) = older.head? := by
        simp [olderOf, filled, olderEq]
      have previous : (cache.fillGap position last).newerOf (some position) = newer.getLast? := by
        simp [newerOf, filled, newerEq]
      simp [Adjacent, olderOf_moved, newerOf_moved, notNewer, notOlder, next, previous]
    · simp only [List.nodup_append, List.nodup_cons, List.mem_cons, List.mem_append]
        at nodup fresh ⊢
      grind
    · intro other member
      rw [size_relink, size_fillGap]
      simp only [List.append_assoc, List.mem_append, List.mem_singleton] at member
      by_cases here : other = position
      · omega
      · have := sides other (by simp only [List.mem_append]; grind)
        omega
  simpa using replaced

end Filling

end RecencyCache

end LocalizedText
