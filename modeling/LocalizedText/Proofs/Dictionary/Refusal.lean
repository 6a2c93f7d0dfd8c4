import LocalizedText.Proofs.Dictionary.Gaps
import Mathlib.Data.List.Find

/-!
# What the loader refuses

A dictionary holds objects, and texts below its locales. The loader refuses every other JSON value
and reports the first value that a dictionary cannot hold, in the order of a depth-first walk: an
object comes before its members, and these in the order of their names.

The loader tries each object as plural forms before it reads it as a node, and knows the paths of
the values it refuses only as dotted keys. The walk knows neither. It comes to every value that a
path leads to, in ascending order of the paths compared name by name.
-/

namespace LocalizedText

namespace Json

mutual

/-- The values at and below a value with their paths, in the order of a depth-first walk. -/
def walk : Json → List (List String × Json)
  | .object members => ([], .object members) :: walkBelow members
  | json => [([], json)]

/-- The values at and below members with their paths, in the order of a depth-first walk. -/
def walkBelow : List (String × Json) → List (List String × Json)
  | [] => []
  | (name, value) :: rest =>
      (walk value).map (fun found => (name :: found.1, found.2)) ++ walkBelow rest

end

/-- A value is a text or an object, as everything below a locale has to be. -/
def isTextOrObject : Json → Bool
  | .string _ => true
  | .object _ => true
  | _ => false

/-- A dictionary can hold a value on a path: objects everywhere, and texts below the locales. -/
def isHeldAt (path : List String) : Json → Bool
  | .object _ => true
  | .string _ => 2 ≤ path.length
  | _ => false

/-- A value is an object of objects, from which paths lead to texts and objects only. -/
def IsDictionary (json : Json) : Prop :=
  ∃ members, json = .object members ∧ ∀ member ∈ members, ∃ inner, member.2 = .object inner ∧
    ∀ path reached, member.2.descend? path = some reached →
      (∃ text, reached = .string text) ∨ ∃ below, reached = .object below

/--
A path leads to the first value that a dictionary cannot hold. Paths are compared name by name, a
front comes before what goes on from it: in this order a depth-first walk comes to them.
-/
structure IsFirstRefused (json : Json) (path : List String) (value : Json) : Prop where
  reached : json.descend? path = some value
  refused : isHeldAt path value = false
  first : ∀ other found, json.descend? other = some found → isHeldAt other found = false →
    other = path ∨ path < other

theorem walkBelow_eq_flatMap (members : List (String × Json)) :
    walkBelow members = members.flatMap fun member =>
      (walk member.2).map fun found => (member.1 :: found.1, found.2) := by
  induction members with
  | nil => rfl
  | cons member rest inductionHypothesis =>
      rw [walkBelow, inductionHypothesis, List.flatMap_cons]

mutual

/-- The walk comes to every value that a path leads to, and to no other. -/
theorem mem_walk_iff : ∀ json : Json, json.IsOrdered → ∀ (path : List String) (value : Json),
    (path, value) ∈ walk json ↔ json.descend? path = some value
  | .object members => by
      intro ordered path value
      rw [walk, List.mem_cons, mem_walkBelow_iff members ordered.2]
      cases path with
      | nil => simp [descend?, eq_comm]
      | cons name rest =>
          simp only [Prod.mk.injEq, reduceCtorEq, false_and, false_or, List.cons.injEq, descend?,
            Option.bind_eq_some_iff]
          constructor
          · rintro ⟨_, _, inner, ⟨rfl, rfl⟩, member, reached⟩
            exact ⟨inner, (Keyed.lookup_eq_some_iff ordered.1.nodup_keys).mpr member, reached⟩
          · rintro ⟨inner, found, reached⟩
            exact ⟨name, rest, inner, ⟨rfl, rfl⟩, Keyed.mem_of_lookup found, reached⟩
  | .null | .bool _ | .number _ | .string _ | .array _ => by
      intro _ path value
      cases path with
      | nil => simp [walk, descend?, eq_comm]
      | cons name rest => simp [walk, descend?]

theorem mem_walkBelow_iff : ∀ members : List (String × Json), membersAreOrdered members →
    ∀ (path : List String) (value : Json), (path, value) ∈ walkBelow members ↔
      ∃ name rest inner, path = name :: rest ∧ (name, inner) ∈ members ∧
        inner.descend? rest = some value
  | [] => by
      intro _ path value
      simp [walkBelow]
  | (name, inner) :: others => by
      intro ordered path value
      rw [walkBelow, List.mem_append, mem_walkBelow_iff others ordered.2, List.mem_map]
      constructor
      · rintro (⟨⟨rest, _⟩, walked, ⟨⟩⟩ | ⟨other, rest, found, rfl, member, reached⟩)
        · exact ⟨name, rest, inner, rfl, by simp, (mem_walk_iff inner ordered.1 _ _).mp walked⟩
        · exact ⟨other, rest, found, rfl, by simp [member], reached⟩
      · rintro ⟨other, rest, found, rfl, member, reached⟩
        rcases List.mem_cons.mp member with same | later
        · cases same
          exact Or.inl ⟨(rest, value), (mem_walk_iff inner ordered.1 _ _).mpr reached, rfl⟩
        · exact Or.inr ⟨other, rest, found, rfl, later, reached⟩

end

mutual

/-- The walk comes to the paths in ascending order. -/
theorem pairwise_walk : ∀ json : Json, json.IsOrdered →
    (walk json).Pairwise fun first second => first.1 < second.1
  | .object members => by
      intro ordered
      rw [walk, List.pairwise_cons]
      refine ⟨?_, pairwise_walkBelow members ordered.1 ordered.2⟩
      rintro ⟨path, value⟩ walked
      rw [mem_walkBelow_iff members ordered.2] at walked
      rcases walked with ⟨name, rest, -, rfl, -, -⟩
      exact List.nil_lt_cons _ _
  | .null | .bool _ | .number _ | .string _ | .array _ => by
      simp [walk]

theorem pairwise_walkBelow : ∀ members : List (String × Json), Keyed.IsSorted members →
    membersAreOrdered members →
      (walkBelow members).Pairwise fun first second => first.1 < second.1
  | [] => by simp [walkBelow]
  | (name, value) :: rest => by
      intro sorted ordered
      rcases List.pairwise_cons.mp sorted with ⟨least, restSorted⟩
      rw [walkBelow, List.pairwise_append]
      refine ⟨?_, pairwise_walkBelow rest restSorted ordered.2, ?_⟩
      · rw [List.pairwise_map]
        exact (pairwise_walk value ordered.1).imp fun smaller => List.Lex.cons smaller
      · rintro ⟨_, _⟩ isFirst ⟨_, _⟩ isSecond
        rcases List.mem_map.mp isFirst with ⟨_, -, ⟨⟩⟩
        rw [mem_walkBelow_iff rest ordered.2] at isSecond
        rcases isSecond with ⟨other, _, inner, rfl, member, -⟩
        exact List.Lex.rel (least _ member)

end

/-- In a list that ascends by a key, the first item with a property has the least key of all. -/
theorem find?_eq_some_iff_least {α κ : Type} [LT κ] [Std.Asymm (α := κ) (· < ·)] {key : α → κ}
    {list : List α} (ascending : list.Pairwise fun first second => key first < key second)
    {property : α → Bool} {item : α} :
    list.find? property = some item ↔ item ∈ list ∧ property item = true ∧
      ∀ other ∈ list, property other = true → other = item ∨ key item < key other := by
  constructor
  · intro found
    rw [List.find?_eq_some_iff_append] at found
    rcases found with ⟨has, before, after, rfl, noneBefore⟩
    refine ⟨by simp, has, ?_⟩
    intro other member otherHas
    rcases List.mem_append.mp member with earlier | later
    · exact absurd otherHas (by simpa using noneBefore other earlier)
    · rcases List.mem_cons.mp later with same | later
      · exact Or.inl same
      · exact Or.inr ((List.pairwise_cons.mp (List.pairwise_append.mp ascending).2.1).1 other later)
  · rintro ⟨member, has, least⟩
    cases found : list.find? property with
    | none => simp [List.find?_eq_none.mp found item member] at has
    | some other =>
        -- Each of the two has the property, so that neither comes before the other.
        rcases List.find?_eq_some_iff_append.mp found with ⟨otherHas, before, after, rfl, none⟩
        rcases least other (by simp) otherHas with same | greater
        · rw [same]
        · rcases List.mem_append.mp member with earlier | later
          · exact absurd has (by simpa using none item earlier)
          · rcases List.mem_cons.mp later with same | later
            · rw [same]
            · have smaller := (List.pairwise_cons.mp (List.pairwise_append.mp ascending).2.1).1 item
                later
              exact absurd smaller (Std.Asymm.asymm _ _ greater)

/-- A value is a dictionary when every path leads to a value that a dictionary can hold there. -/
theorem isDictionary_iff {json : Json} (ordered : json.IsOrdered) : json.IsDictionary ↔
    ∀ path value, json.descend? path = some value → isHeldAt path value = true := by
  constructor
  · rintro ⟨members, rfl, objects⟩ path value reached
    cases path with
    | nil =>
        cases reached
        rfl
    | cons locale rest =>
        rcases Option.bind_eq_some_iff.mp reached with ⟨own, found, reached⟩
        rcases objects _ (Keyed.mem_of_lookup found) with ⟨inner, rfl, below⟩
        cases rest with
        | nil =>
            cases reached
            rfl
        | cons name rest =>
            rcases below _ value reached with ⟨text, rfl⟩ | ⟨inside, rfl⟩
            · simp [isHeldAt]
            · rfl
  · intro held
    cases json with
    | object members =>
        refine ⟨members, rfl, ?_⟩
        rintro ⟨locale, own⟩ member
        -- A member is the one that its name leads to, since no name stands twice.
        have found := (Keyed.lookup_eq_some_iff ordered.1.nodup_keys).mpr member
        have reaches (path : List String) :
            (object members).descend? (locale :: path) = own.descend? path := by
          simp [descend?, found]
        have isObject := held [locale] own (reaches [])
        cases own with
        | object inner =>
            refine ⟨inner, rfl, ?_⟩
            intro path reached leads
            have isHeld := held (locale :: path) reached ((reaches path).trans leads)
            cases reached with
            | string text => exact Or.inl ⟨text, rfl⟩
            | object below => exact Or.inr ⟨below, rfl⟩
            | null | bool _ | number _ | array _ => cases isHeld
        | null | bool _ | number _ | string _ | array _ => cases isObject
    | null | bool _ | number _ | string _ | array _ => cases held [] _ rfl

end Json

namespace Dictionary

open Json

/-- The error that loading ended with. -/
def refusal? {α : Type} : Except LoadError α → Option LoadError
  | .ok _ => none
  | .error error => some error

/-- The error for a value that a walk came to from a path. -/
def refusalOf (path : String) (found : List String × Json) : LoadError :=
  .invalidEntry (found.1.foldl joinPath path) found.2.kind

theorem refusal?_pair {α β γ : Type} (first : Except LoadError α) (second : Except LoadError β)
    (result : α → β → γ) :
    refusal? (do return result (← first) (← second)) = (refusal? first).or (refusal? second) := by
  cases first with
  | error error => rfl
  | ok value => cases second <;> rfl

/-- Nothing is refused below plural forms. -/
theorem find?_walkBelow_of_ofMembers? {members : List (String × Json)} {forms : PluralForms}
    (loaded : PluralForms.ofMembers? members = some forms) :
    (walkBelow members).find? (fun found => !isTextOrObject found.2) = none := by
  have variants : ∀ member ∈ members, isVariant member = true := by
    intro member isMember
    unfold PluralForms.ofMembers? at loaded
    split at loaded
    · cases loaded
    · by_contra notVariant
      rw [Bool.not_eq_true] at notVariant
      rw [PluralForms.addMembers?_eq_none isMember notVariant] at loaded
      cases loaded
  clear loaded
  rw [List.find?_eq_none, walkBelow_eq_flatMap]
  intro found isFound
  rcases List.mem_flatMap.mp isFound with ⟨member, isMember, walked⟩
  rcases exists_of_isVariant (variants member isMember) with ⟨category, text, rfl⟩
  simp only [walk, List.map_cons, List.map_nil, List.mem_singleton] at walked
  simp [walked, isTextOrObject]

mutual

theorem refusal?_entryOfJson : ∀ (value : Json) (path : String),
    refusal? (Entries.entryOfJson path value) =
      ((walk value).find? fun found => !isTextOrObject found.2).map (refusalOf path)
  | .object members => by
      intro path
      rw [walk, List.find?_cons_of_neg (by simp [isTextOrObject]), Entries.entryOfJson]
      split
      · next forms loaded => rw [find?_walkBelow_of_ofMembers? loaded]; rfl
      · rw [← refusal?_ofMembers members path]
        cases Entries.ofMembers path members <;> rfl
  | .string text => by
      intro path
      rfl
  | .null | .bool _ | .number _ | .array _ => by
      intro path
      rfl

theorem refusal?_ofMembers : ∀ (members : List (String × Json)) (path : String),
    refusal? (Entries.ofMembers path members) =
      ((walkBelow members).find? fun found => !isTextOrObject found.2).map (refusalOf path)
  | [] => by
      intro path
      rfl
  | (name, value) :: rest => by
      intro path
      have loaded : Entries.ofMembers path ((name, value) :: rest) = (do
          return (name, ← Entries.entryOfJson (joinPath path name) value) ::
            (← Entries.ofMembers path rest)) := by
        rw [Entries.ofMembers]
      rw [loaded, refusal?_pair, refusal?_entryOfJson value, refusal?_ofMembers rest, walkBelow,
        List.find?_append, List.find?_map, Option.map_or, Option.map_map]
      rfl

end

theorem refusal?_ofJsonAt (locale : String) (value : Json) :
    refusal? (Entries.ofJsonAt locale value) =
      (((walk value).map fun found => (locale :: found.1, found.2)).find? fun found =>
        !isHeldAt found.1 found.2).map (refusalOf "") := by
  cases value with
  | object members =>
      have below : (walkBelow members).find? (fun found => !isHeldAt (locale :: found.1) found.2) =
          (walkBelow members).find? fun found => !isTextOrObject found.2 := by
        apply List.find?_congr
        intro found isFound
        rw [walkBelow_eq_flatMap] at isFound
        rcases List.mem_flatMap.mp isFound with ⟨member, -, walked⟩
        rcases List.mem_map.mp walked with ⟨⟨path, value⟩, -, rfl⟩
        cases value <;> simp [isHeldAt, isTextOrObject]
      rw [Entries.ofJsonAt, refusal?_ofMembers, walk, List.map_cons,
        List.find?_cons_of_neg (by simp [isHeldAt]), List.find?_map, Option.map_map, ← below]
      rfl
  | string text => rfl
  | null | bool _ | number _ | array _ => rfl

theorem refusal?_localesOfMembers (members : List (String × Json)) :
    refusal? (localesOfMembers members) =
      ((walkBelow members).find? fun found => !isHeldAt found.1 found.2).map (refusalOf "") := by
  induction members with
  | nil => rfl
  | cons member rest inductionHypothesis =>
      rcases member with ⟨locale, value⟩
      rw [localesOfMembers, refusal?_pair, inductionHypothesis, refusal?_ofJsonAt, walkBelow,
        List.find?_append, Option.map_or]

/-- Loading ends with the error for the first value of the walk that a dictionary cannot hold. -/
theorem refusal?_ofJson (json : Json) :
    refusal? (ofJson json) =
      ((walk json).find? fun found => !isHeldAt found.1 found.2).map (refusalOf "") := by
  cases json with
  | object members =>
      rw [walk, List.find?_cons_of_neg (by simp [isHeldAt]), ← refusal?_localesOfMembers, ofJson]
      cases localesOfMembers members <;> rfl
  | null | bool _ | number _ | string _ | array _ => rfl

theorem refusal?_eq_some_iff {α : Type} {result : Except LoadError α} {error : LoadError} :
    refusal? result = some error ↔ result = .error error := by
  cases result with
  | ok value => simp [refusal?]
  | error found => simp [refusal?]

theorem refusal?_eq_none_iff {α : Type} {result : Except LoadError α} :
    refusal? result = none ↔ ∃ value, result = .ok value := by
  cases result with
  | ok value => simp [refusal?]
  | error found => simp [refusal?]

/-- The first value of the walk that a dictionary cannot hold is the one with the least path. -/
theorem isFirstRefused_iff {json : Json} (ordered : json.IsOrdered) {path : List String}
    {value : Json} : json.IsFirstRefused path value ↔
      (walk json).find? (fun found => !isHeldAt found.1 found.2) = some (path, value) := by
  rw [find?_eq_some_iff_least (pairwise_walk json ordered), mem_walk_iff json ordered]
  constructor
  · rintro ⟨reached, refused, first⟩
    refine ⟨reached, by simp [refused], ?_⟩
    rintro ⟨other, found⟩ walked otherRefused
    have otherReached := (mem_walk_iff json ordered other found).mp walked
    rcases first other found otherReached (by simpa using otherRefused) with rfl | greater
    · rw [reached] at otherReached
      cases otherReached
      exact Or.inl rfl
    · exact Or.inr greater
  · rintro ⟨reached, refused, first⟩
    refine ⟨reached, by simpa using refused, ?_⟩
    intro other found otherReached otherRefused
    have walked := (mem_walk_iff json ordered other found).mpr otherReached
    rcases first (other, found) walked (by simp [otherRefused]) with same | greater
    · exact Or.inl (congrArg Prod.fst same)
    · exact Or.inr greater

/--
A dictionary is loaded from an object of objects in which paths lead to texts and objects only, and
from nothing else. Any other value is refused for the first value in it that a dictionary cannot
hold, and the error tells the dotted key of the path to this value, and its kind.
-/
theorem ofJson_refuses_first {json : Json} (ordered : json.IsOrdered) :
    ((∃ dictionary, ofJson json = .ok dictionary) ↔ json.IsDictionary) ∧
      ∀ error, ofJson json = .error error ↔
        ∃ path value, json.IsFirstRefused path value ∧
          error = .invalidEntry (dottedKey path) value.kind := by
  constructor
  · rw [← refusal?_eq_none_iff, refusal?_ofJson, Option.map_eq_none_iff, List.find?_eq_none,
      isDictionary_iff ordered]
    simp only [Prod.forall, mem_walk_iff json ordered, Bool.not_eq_true', Bool.not_eq_false]
  · intro error
    rw [← refusal?_eq_some_iff, refusal?_ofJson, Option.map_eq_some_iff]
    simp only [Prod.exists, isFirstRefused_iff ordered, refusalOf, foldl_joinPath, eq_comm]

/-- An object that starts like plural forms holds the first of three values that are refused. -/
theorem ofJson_refuses_first_number :
    let items : Json := .object [("one", .string "item"), ("two", .number (.integer 2))]
    let json : Json :=
      .object [("en", .object [("items", items), ("list", .array [])]), ("fr", .string "")]
    json.IsOrdered ∧ ofJson json = .error (.invalidEntry "en.items.two" "number") ∧
      (∃ path value, json.IsFirstRefused path value ∧ dottedKey path = "en.items.two" ∧
        value.kind = "number") ∧ ¬json.IsDictionary := by
  intro items json
  have ordered : json.IsOrdered := by
    simp only [json, items, Json.IsOrdered, Json.membersAreOrdered, Json.itemsAreOrdered,
      Keyed.IsSorted]
    decide
  have refused : ofJson json = .error (.invalidEntry "en.items.two" "number") := by rfl
  rcases ofJson_refuses_first ordered with ⟨accepted, reported⟩
  rcases (reported _).mp refused with ⟨path, value, first, same⟩
  rw [LoadError.invalidEntry.injEq] at same
  refine ⟨ordered, refused, ⟨path, value, first, same.1.symm, same.2.symm⟩, ?_⟩
  intro isDictionary
  rcases accepted.mpr isDictionary with ⟨dictionary, loaded⟩
  rw [refused] at loaded
  cases loaded

end Dictionary

end LocalizedText
