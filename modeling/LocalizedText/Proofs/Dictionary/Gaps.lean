import LocalizedText.Dictionary.Validation
import LocalizedText.Proofs.Dictionary.Loading
import LocalizedText.Proofs.Parameter.Observation
import Mathlib.Data.Set.Card

/-!
# What checking a dictionary finds

A JSON object has a gap when a category keyword is one of its names but `other` is not, whatever the
members are. Checking the dictionary that was loaded for a value reports every object with a gap at
or below a locale, once for each, and nothing else.

The loader takes the objects apart by their shape, and the check looks at plural forms and at nodes in
two ways. Both come to the same list of paths, which is worked out from the value alone.
-/

namespace LocalizedText

/-- The dotted key of a path: its names joined by dots, without the empty names at the start. -/
def dottedKey (names : List String) : String :=
  ".".intercalate (names.dropWhile String.isEmpty)

theorem foldl_joinPath_of_ne {path : String} (started : path ≠ "") (names : List String) :
    names.foldl joinPath path = ".".intercalate (path :: names) := by
  induction names generalizing path with
  | nil => simp
  | cons name rest inductionHypothesis =>
      have joined : joinPath path name = path ++ ("." ++ name) := by
        simp [joinPath, String.isEmpty_iff, started, String.append_assoc]
      have stillStarted : path ++ ("." ++ name) ≠ "" := by
        simp [String.append_eq_empty_iff, started]
      rw [List.foldl_cons, joined, inductionHypothesis stillStarted]
      simp [String.append_assoc]

theorem foldl_joinPath (names : List String) : names.foldl joinPath "" = dottedKey names := by
  induction names with
  | nil => rfl
  | cons name rest inductionHypothesis =>
      have joined : joinPath "" name = name := rfl
      rw [List.foldl_cons, joined]
      by_cases empty : name = ""
      · -- The path is still empty, so that no dot comes before the next name either.
        subst empty
        exact inductionHypothesis
      · have stops : name.isEmpty = false := by simpa [String.isEmpty_iff] using empty
        rw [foldl_joinPath_of_ne empty, dottedKey, List.dropWhile_cons_of_neg (by simp [stops])]

namespace Json

/-- The object that a path leads to has a member named by a category keyword, but none for `other`. -/
def HasGapAt (json : Json) (path : List String) : Prop :=
  ∃ members, json.descend? path = some (.object members) ∧
    (∃ category : PluralCategory, category.name ∈ members.map Prod.fst) ∧
      "other" ∉ members.map Prod.fst

mutual

/-- The paths to the objects with a gap at or below a value. -/
def gaps : Json → List (List String)
  | .object members =>
      gapsBelow members ++ if Entries.lacksOther (members.map Prod.fst) then [[]] else []
  | _ => []

/-- The paths to the objects with a gap at or below the members of an object. -/
def gapsBelow : List (String × Json) → List (List String)
  | [] => []
  | (name, value) :: rest => (gaps value).map (name :: ·) ++ gapsBelow rest

end

theorem lacksOther_iff {names : List String} :
    Entries.lacksOther names = true ↔
      (∃ category : PluralCategory, category.name ∈ names) ∧ "other" ∉ names := by
  simp only [Entries.lacksOther, PluralCategory.isKeyword, Bool.and_eq_true, List.any_eq_true,
    Option.isSome_iff_exists, PluralCategory.ofName?_eq_some_iff, Bool.not_eq_true',
    List.contains_eq_mem, decide_eq_false_iff_not]
  constructor
  · rintro ⟨⟨name, member, category, rfl⟩, missing⟩
    exact ⟨⟨category, member⟩, missing⟩
  · rintro ⟨⟨category, member⟩, missing⟩
    exact ⟨⟨category.name, member, category, rfl⟩, missing⟩

section Paths

variable {members : List (String × Json)} {name : String} {path : List String}

theorem hasGapAt_nil : (object members).HasGapAt [] ↔
    Entries.lacksOther (members.map Prod.fst) = true := by
  simp [HasGapAt, descend?, lacksOther_iff]

theorem hasGapAt_cons : (object members).HasGapAt (name :: path) ↔
    ∃ value, members.lookup name = some value ∧ value.HasGapAt path := by
  simp only [HasGapAt, descend?, Option.bind_eq_some_iff]
  constructor
  · rintro ⟨inner, ⟨value, found, reached⟩, gap⟩
    exact ⟨value, found, inner, reached, gap⟩
  · rintro ⟨value, found, inner, reached, gap⟩
    exact ⟨inner, ⟨value, found, reached⟩, gap⟩

theorem hasGapAt_of_no_object {json : Json} (noObject : ∀ members, json ≠ .object members) :
    ¬ json.HasGapAt path := by
  rintro ⟨inner, reached, -⟩
  cases path with
  | nil => exact noObject inner (by simpa [descend?] using reached)
  | cons name rest =>
      cases json with
      | object members => exact noObject members rfl
      | null | bool _ | number _ | string _ | array _ => simp [descend?] at reached

end Paths

mutual

theorem mem_gaps_iff : ∀ (json : Json), json.IsOrdered → ∀ path : List String,
    path ∈ gaps json ↔ json.HasGapAt path
  | .object members => by
      intro ordered path
      rw [gaps, List.mem_append, mem_gapsBelow_iff members ordered.2]
      cases path with
      | nil =>
          rw [hasGapAt_nil]
          split
          · simp [*]
          · simp [*]
      | cons name rest =>
          rw [hasGapAt_cons]
          have own : name :: rest ∉
              if Entries.lacksOther (members.map Prod.fst) then [([] : List String)] else [] := by
            split
            · simp
            · simp
          simp only [own, or_false, List.cons.injEq]
          constructor
          · rintro ⟨_, _, value, ⟨rfl, rfl⟩, member, gap⟩
            exact ⟨value, (Keyed.lookup_eq_some_iff ordered.1.nodup_keys).mpr member, gap⟩
          · rintro ⟨value, found, gap⟩
            exact ⟨name, rest, value, ⟨rfl, rfl⟩, Keyed.mem_of_lookup found, gap⟩
  | .null | .bool _ | .number _ | .string _ | .array _ => by
      intro _ path
      simp [gaps, hasGapAt_of_no_object]

theorem mem_gapsBelow_iff : ∀ (members : List (String × Json)), membersAreOrdered members →
    ∀ path : List String, path ∈ gapsBelow members ↔
      ∃ name rest value, path = name :: rest ∧ (name, value) ∈ members ∧ value.HasGapAt rest
  | [] => by
      intro _ path
      simp [gapsBelow]
  | (name, value) :: others => by
      intro ordered path
      rw [gapsBelow, List.mem_append, mem_gapsBelow_iff others ordered.2, List.mem_map]
      constructor
      · rintro (⟨rest, gap, rfl⟩ | ⟨other, rest, inner, rfl, member, gap⟩)
        · exact ⟨name, rest, value, rfl, by simp,
            (mem_gaps_iff value ordered.1 rest).mp gap⟩
        · exact ⟨other, rest, inner, rfl, by simp [member], gap⟩
      · rintro ⟨other, rest, inner, rfl, member, gap⟩
        rcases List.mem_cons.mp member with same | later
        · cases same
          exact Or.inl ⟨rest, (mem_gaps_iff value ordered.1 rest).mpr gap, rfl⟩
        · exact Or.inr ⟨other, rest, inner, rfl, later, gap⟩

end

mutual

/-- No object is listed twice. -/
theorem nodup_gaps : ∀ json : Json, json.IsOrdered → (gaps json).Nodup
  | .object members => by
      intro ordered
      have below := nodup_gapsBelow members ordered.1.nodup_keys ordered.2
      rw [gaps]
      split
      · rw [List.nodup_append]
        refine ⟨below, by simp, ?_⟩
        rintro path isBelow _ own rfl
        rw [mem_gapsBelow_iff members ordered.2] at isBelow
        rcases isBelow with ⟨name, rest, value, rfl, -⟩
        simp at own
      · simpa using below
  | .null | .bool _ | .number _ | .string _ | .array _ => by
      simp [gaps]

theorem nodup_gapsBelow : ∀ members : List (String × Json), (members.map Prod.fst).Nodup →
    membersAreOrdered members → (gapsBelow members).Nodup
  | [] => by simp [gapsBelow]
  | (name, value) :: rest => by
      intro distinct ordered
      rcases List.nodup_cons.mp distinct with ⟨new, restDistinct⟩
      rw [gapsBelow, List.nodup_append]
      refine ⟨?_, nodup_gapsBelow rest restDistinct ordered.2, ?_⟩
      · exact (nodup_gaps value ordered.1).map (List.cons_injective)
      · rintro path isFirst _ isLater rfl
        rcases List.mem_map.mp isFirst with ⟨inner, -, rfl⟩
        rw [mem_gapsBelow_iff rest ordered.2] at isLater
        rcases isLater with ⟨other, _, found, same, member, -⟩
        cases same
        exact new (List.mem_map.mpr ⟨_, member, rfl⟩)

end

section Loaded

variable {members : List (String × Json)} {entries : List (String × Entry)}

theorem isComplete_formsOf (shaped : isPluralShaped members = true) :
    (formsOf members).isComplete = !Entries.lacksOther (members.map Prod.fst) := by
  have variants := isVariant_of_isPluralShaped shaped
  have keyword : (members.map Prod.fst).any PluralCategory.isKeyword = true := by
    cases members with
    | nil => simp [isPluralShaped] at shaped
    | cons first rest =>
        rcases exists_of_isVariant (variants first (by simp)) with ⟨category, text, rfl⟩
        simp [PluralCategory.isKeyword, PluralCategory.ofName?_name]
  have filled : (textAt? members "other").isSome = (members.map Prod.fst).contains "other" := by
    clear shaped keyword
    induction members with
    | nil => rfl
    | cons first rest inductionHypothesis =>
        rcases exists_of_isVariant (variants first (by simp)) with ⟨category, text, rfl⟩
        by_cases same : "other" = category.name
        · rw [same, textAt?_cons_self]
          simp
        · rw [textAt?_cons_of_ne same, inductionHypothesis fun other member =>
            variants other (by simp [member])]
          simp [same]
  unfold Entries.lacksOther
  rw [keyword, Bool.true_and, Bool.not_not]
  exact filled

theorem gapsBelow_of_isVariant (variants : ∀ member ∈ members, isVariant member = true) :
    gapsBelow members = [] := by
  induction members with
  | nil => rfl
  | cons first rest inductionHypothesis =>
      rcases exists_of_isVariant (variants first (by simp)) with ⟨category, text, rfl⟩
      rw [gapsBelow, inductionHypothesis fun other member => variants other (by simp [member])]
      rfl

/-- The own issue of a node comes after those below it, as the gaps of its object do. -/
theorem LoadsAll.issuesOf_node (loaded : LoadsAll members entries) {path : String}
    (below : Entries.issuesBelow path entries =
      (gapsBelow members).map fun names => names.foldl joinPath path) :
    Entries.issuesOf path (.node entries) =
      (gaps (.object members)).map fun names => names.foldl joinPath path := by
  rw [Entries.issuesOf, gaps, List.map_append, below, loaded.names_eq]
  split
  · rfl
  · rfl

mutual

/-- The issues of what is loaded for a value are the gaps of the value. -/
theorem Loads.issuesOf_eq : ∀ (value : Json) (entry : Entry) (path : String), value.Loads entry →
    Entries.issuesOf path entry = (gaps value).map fun names => names.foldl joinPath path
  | .object members => by
      intro entry path loaded
      cases loaded with
      | plural shaped =>
          rw [Entries.issuesOf, gaps, isComplete_formsOf shaped,
            gapsBelow_of_isVariant (isVariant_of_isPluralShaped shaped)]
          cases Entries.lacksOther (members.map Prod.fst) with
          | true => rfl
          | false => rfl
      | node unshaped below =>
          exact below.issuesOf_node (LoadsAll.issuesBelow_eq members _ path below)
  | .string content => by
      rintro _ path ⟨⟩
      rfl
  | .null | .bool _ | .number _ | .array _ => by
      rintro entry path ⟨⟩

theorem LoadsAll.issuesBelow_eq : ∀ (members : List (String × Json))
    (entries : List (String × Entry)) (path : String), LoadsAll members entries →
      Entries.issuesBelow path entries =
        (gapsBelow members).map fun names => names.foldl joinPath path
  | [] => by
      rintro _ path ⟨⟩
      rfl
  | (name, value) :: rest => by
      intro entries path loaded
      cases loaded with
      | cons first others =>
          rw [Entries.issuesBelow, gapsBelow, List.map_append, List.map_map,
            Loads.issuesOf_eq value _ _ first, LoadsAll.issuesBelow_eq rest _ path others]
          rfl

end

end Loaded

end Json

namespace Dictionary

variable {json : Json} {dictionary : Dictionary}

theorem count_issues_of_locale (locale other key : String) (entries : Entries) :
    (Entries.validate other entries).issues.count ⟨locale, key⟩ =
      if locale = other then (Entries.issuesOf "" (.node entries)).count key else 0 := by
  unfold Entries.validate
  simp only
  split
  · next same =>
      subst same
      have injective : Function.Injective fun key : String => ValidationIssue.mk locale key := by
        intro left right same
        exact congrArg ValidationIssue.key same
      rw [List.count_map_of_injective _ _ injective]
      exact (List.mergeSort_perm _ _).count_eq key
  · next different =>
      rw [List.count_eq_zero]
      intro member
      rcases List.mem_map.mp member with ⟨found, -, same⟩
      exact different (congrArg ValidationIssue.locale same).symm

theorem count_issues_validate (distinct : (dictionary.locales.map Prod.fst).Nodup)
    (locale key : String) :
    dictionary.validate.issues.count ⟨locale, key⟩ =
      ((dictionary.locales.lookup locale).map fun entries =>
        (Entries.issuesOf "" (.node entries)).count key).getD 0 := by
  unfold validate
  simp only
  generalize dictionary.locales = locales at distinct
  induction locales with
  | nil => rfl
  | cons first rest inductionHypothesis =>
      rcases first with ⟨other, entries⟩
      rcases List.nodup_cons.mp distinct with ⟨new, restDistinct⟩
      rw [List.flatMap_cons, List.count_append, count_issues_of_locale,
        inductionHypothesis restDistinct]
      by_cases same : locale = other
      · subst same
        simp [Keyed.lookup_eq_none_iff.mpr new]
      · rw [Keyed.lookup_cons_of_ne same, if_neg same, Nat.zero_add]

/-- The issues stand in ascending order of the locales, and of the keys within a locale. -/
theorem pairwise_issues_validate (sorted : Keyed.IsSorted dictionary.locales) :
    dictionary.validate.issues.Pairwise fun first second =>
      first.locale < second.locale ∨ first.locale = second.locale ∧ first.key ≤ second.key := by
  unfold validate
  rw [List.pairwise_flatMap]
  constructor
  · intro locale _
    unfold Entries.validate
    rw [List.pairwise_map]
    refine (List.pairwise_mergeSort ?_ ?_ _).imp ?_
    · intro first second third
      simp only [decide_eq_true_eq]
      exact le_trans
    · intro first second
      simpa using le_total first second
    · intro first second before
      exact Or.inr ⟨rfl, by simpa using before⟩
  · refine sorted.imp ?_
    intro first second before left isLeft right isRight
    simp only [Entries.validate, List.mem_map] at isLeft isRight
    rcases isLeft with ⟨leftKey, -, rfl⟩
    rcases isRight with ⟨rightKey, -, rfl⟩
    exact Or.inl before

theorem count_map_eq_encard {α β : Type} [DecidableEq β] {list : List α} (distinct : list.Nodup)
    (image : α → β) (value : β) :
    ((list.map image).count value : ℕ∞) = {item | item ∈ list ∧ image item = value}.encard := by
  classical
  have finite : {item | item ∈ list ∧ image item = value} =
      ((list.filter fun item => image item = value).toFinset : Set α) := by
    ext item
    simp
  rw [finite, Set.encard_coe_eq_coe_finsetCard, List.toFinset_card_of_nodup (distinct.filter _),
    ← List.countP_eq_length_filter, List.count_eq_countP, List.countP_map]
  rfl

/--
Checking a loaded dictionary finds the objects with a gap in the JSON value, in order: each issue
occurs as often as there are such objects in its locale with its key.
-/
theorem issues_validate_of_ofJson (ordered : json.IsOrdered)
    (loaded : ofJson json = .ok dictionary) :
    (dictionary.validate.issues.Pairwise fun first second =>
        first.locale < second.locale ∨ first.locale = second.locale ∧ first.key ≤ second.key) ∧
      ∀ locale key, (dictionary.validate.issues.count ⟨locale, key⟩ : ℕ∞) =
        {path | json.HasGapAt (locale :: path) ∧ dottedKey path = key}.encard := by
  rcases exists_loadsLocales ordered loaded with ⟨members, rfl, locales⟩
  have names := locales.names_eq
  have sorted : Keyed.IsSorted dictionary.locales := by
    have inOrder : (members.map Prod.fst).Pairwise (· < ·) := List.pairwise_map.mpr ordered.1
    rw [← names] at inOrder
    exact List.pairwise_map.mp inOrder
  refine ⟨pairwise_issues_validate sorted, ?_⟩
  intro locale key
  rw [count_issues_validate sorted.nodup_keys]
  simp only [Json.hasGapAt_cons]
  have reached := locales.lookup locale
  generalize found : members.lookup locale = value at reached ⊢
  generalize dictionary.locales.lookup locale = entries at reached ⊢
  cases reached with
  | none => simp
  | some first =>
      rcases first with ⟨inner, rfl, below⟩
      have innerOrdered := Json.membersAreOrdered_iff.mp ordered.2 _ (Keyed.mem_of_lookup found)
      have issues := below.issuesOf_node (Json.LoadsAll.issuesBelow_eq inner _ "" below)
      simp only [Option.map_some, Option.getD_some, issues, foldl_joinPath]
      rw [count_map_eq_encard (Json.nodup_gaps _ innerOrdered)]
      simp [Json.mem_gaps_iff _ innerOrdered]

/-- A gap below the empty name and the gap of the locale itself have the same key. -/
theorem issues_validate_of_ofJson_mixed :
    let json : Json :=
      .object [
        ("de", .object [
          ("", .object [("one", .string "eins")]),
          ("few", .string "wenige"),
          ("menu", .object [("one", .object []), ("title", .string "Titel")])]),
        ("en", .object [("one", .string "one"), ("other", .string "many")])]
    ∃ dictionary, json.IsOrdered ∧ ofJson json = .ok dictionary ∧
      (∀ locale key, (dictionary.validate.issues.count ⟨locale, key⟩ : ℕ∞) =
        {path | json.HasGapAt (locale :: path) ∧ dottedKey path = key}.encard) ∧
      dictionary.validate.issues.count ⟨"de", ""⟩ = 2 ∧
      dictionary.validate.issues.count ⟨"de", "menu"⟩ = 1 ∧
      dictionary.validate.issues.count ⟨"en", ""⟩ = 0 := by
  intro json
  have ordered : json.IsOrdered := by
    simp only [json, Json.IsOrdered, Json.membersAreOrdered, Keyed.IsSorted]
    decide
  refine ⟨_, ordered, rfl, (issues_validate_of_ofJson ordered rfl).2, ?_⟩
  rw [count_issues_validate (by decide), count_issues_validate (by decide),
    count_issues_validate (by decide)]
  decide

end Dictionary

end LocalizedText
