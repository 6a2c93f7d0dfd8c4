import LocalizedText.Proofs.Dictionary.Coverage
import LocalizedText.Proofs.Dictionary.Gaps

/-!
# Leaf keys

The leaf keys of entries are the paths of names that lead to a text or to plural forms, each joined by
dots. Looking a key up splits it at its dots again. The two are inverse on plain paths: no name on a
plain path has a dot itself, and none at the start is empty, unless it is the only one. On other paths
they need not be, because a dot in a name is not marked in any way.
-/

namespace LocalizedText

/-- No name on a path has a dot in it, and the first name is not empty unless it is the only one. -/
def IsPlainPath (names : List String) : Prop :=
  (∀ name ∈ names, '.' ∉ name.toList) ∧ (names.head? = some "" → names = [""])

theorem keyNames_intercalate {names : List String} (dotless : ∀ name ∈ names, '.' ∉ name.toList)
    (nonempty : names ≠ []) : keyNames (".".intercalate names) = names := by
  have parts : (".".intercalate names).toList.splitOn '.' = names.map String.toList := by
    rw [String.toList_intercalate]
    apply List.splitOn_intercalate
    · simpa using dotless
    · simpa using nonempty
  rw [keyNames, parts, List.map_map]
  simp

/-- The names on a key are those before one of its dots and those behind it. -/
theorem keyNames_append (above below : String) :
    keyNames (above ++ "." ++ below) = keyNames above ++ keyNames below := by
  have parts : (above ++ "." ++ below).toList = above.toList ++ '.' :: below.toList := by simp
  rw [keyNames, parts, List.splitOn_append_cons_self, List.map_append]
  rfl

theorem keyNames_ne_nil (key : String) : keyNames key ≠ [] := by
  simp [keyNames, List.splitOn_ne_nil]

theorem intercalate_keyNames (key : String) : ".".intercalate (keyNames key) = key := by
  apply String.toList_injective
  rw [String.toList_intercalate, keyNames, List.map_map]
  simp [Function.comp_def, List.intercalate_splitOn]

/-- No part of a list that was split has the separator. -/
theorem not_mem_of_mem_splitOn {α : Type} [BEq α] [LawfulBEq α] {separator : α}
    {list part : List α} (member : part ∈ list.splitOn separator) : separator ∉ part := by
  induction list generalizing part with
  | nil =>
      rw [List.splitOn_nil, List.mem_singleton] at member
      simp [member]
  | cons first rest inductionHypothesis =>
      rw [List.splitOn_cons_eq_if_modifyHead] at member
      split at member
      · rcases List.mem_cons.mp member with rfl | later
        · simp
        · exact inductionHypothesis later
      · next different =>
          cases parts : rest.splitOn separator with
          | nil => exact absurd parts (List.splitOn_ne_nil _ _)
          | cons head tail =>
              rw [parts] at member inductionHypothesis
              rw [List.modifyHead_cons] at member
              rcases List.mem_cons.mp member with rfl | later
              · rw [List.mem_cons, not_or]
                have apart : separator ≠ first := by
                  rintro rfl
                  exact different (by simp)
                exact ⟨apart, inductionHypothesis List.mem_cons_self⟩
              · exact inductionHypothesis (List.mem_cons_of_mem _ later)

theorem not_mem_of_mem_keyNames {key name : String} (member : name ∈ keyNames key) :
    '.' ∉ name.toList := by
  rcases List.mem_map.mp member with ⟨part, isPart, rfl⟩
  simpa using not_mem_of_mem_splitOn isPart

theorem dottedKey_of_isPlainPath {names : List String} (plain : IsPlainPath names) :
    dottedKey names = ".".intercalate names := by
  cases names with
  | nil => rfl
  | cons name rest =>
      by_cases empty : name = ""
      · -- An empty first name is the only one on a plain path.
        subst empty
        rw [plain.2 rfl]
        rfl
      · have stops : name.isEmpty = false := by simpa [String.isEmpty_iff] using empty
        rw [dottedKey, List.dropWhile_cons_of_neg (by simp [stops])]

/-- The names on a plain path are found again in its key. -/
theorem keyNames_dottedKey {names : List String} (plain : IsPlainPath names)
    (nonempty : names ≠ []) : keyNames (dottedKey names) = names := by
  rw [dottedKey_of_isPlainPath plain, keyNames_intercalate plain.1 nonempty]

namespace Entries

/-- Names lead from entries down to a text or to plural forms. -/
def LeadsTo (entries : Entries) (names : List String) (content : Content) : Prop :=
  (entries.find? names).bind Entry.content? = some content

end Entries

/-- Names lead from an entry to a text or to plural forms, which it may be itself. -/
def Entry.LeadsTo (entry : Entry) (names : List String) (content : Content) : Prop :=
  names = [] ∧ entry.content? = some content ∨
    ∃ children, entry = .node children ∧ Entries.LeadsTo children names content

mutual

/-- The paths from an entry to the texts and plural forms at or below it, in the order of the names. -/
def Entry.leafPaths : Entry → List (List String)
  | .text _ => [[]]
  | .plural _ => [[]]
  | .node children => Entries.leafPaths children

/-- The paths from entries to the texts and plural forms below them, in the order of the names. -/
def Entries.leafPaths : List (String × Entry) → List (List String)
  | [] => []
  | (name, entry) :: rest => entry.leafPaths.map (name :: ·) ++ Entries.leafPaths rest

end

namespace Entries

variable {entries : Entries} {name key : String} {names : List String} {content : Content}

theorem not_leadsTo_nil : ¬entries.LeadsTo [] content := by
  simp [LeadsTo, find?]

theorem leadsTo_cons : entries.LeadsTo (name :: names) content ↔
    ∃ entry, entries.lookup name = some entry ∧ entry.LeadsTo names content := by
  cases names with
  | nil => simp [LeadsTo, Entry.LeadsTo, find?, Option.bind_eq_some_iff]
  | cons next rest =>
      rw [LeadsTo, find?]
      · cases entries.lookup name with
        | none => simp
        | some entry => cases entry <;> simp [Entry.LeadsTo, LeadsTo]
      · simp

/-- A path from entries goes on from one of them, which its first name tells from all others. -/
theorem exists_leadsTo_iff (distinct : (entries.map Prod.fst).Nodup) :
    (∃ content, entries.LeadsTo names content) ↔
      ∃ name entry rest content, names = name :: rest ∧ (name, entry) ∈ entries ∧
        entry.LeadsTo rest content := by
  constructor
  · rintro ⟨content, leads⟩
    cases names with
    | nil => exact absurd leads not_leadsTo_nil
    | cons name rest =>
        rcases leadsTo_cons.mp leads with ⟨entry, found, leadsOn⟩
        exact ⟨name, entry, rest, content, rfl, Keyed.mem_of_lookup found, leadsOn⟩
  · rintro ⟨name, entry, rest, content, rfl, member, leadsOn⟩
    -- No other entry has this name, so that it is this one that is looked up.
    have found := (Keyed.lookup_eq_some_iff distinct).mpr member
    exact ⟨content, leadsTo_cons.mpr ⟨entry, found, leadsOn⟩⟩

theorem leafPaths_eq_flatMap (entries : Entries) :
    leafPaths entries = entries.flatMap fun pair => pair.2.leafPaths.map (pair.1 :: ·) := by
  induction entries with
  | nil => rfl
  | cons pair rest inductionHypothesis => rw [leafPaths, inductionHypothesis, List.flatMap_cons]

/-- The leaf paths of an entry are those on which names lead to a text or to plural forms. -/
theorem mem_leafPathsOf_iff {entry : Entry} (ordered : entry.IsOrdered) :
    names ∈ entry.leafPaths ↔ ∃ content, entry.LeadsTo names content := by
  induction entry generalizing names with
  | text content => simp [Entry.leafPaths, Entry.LeadsTo, Entry.content?]
  | plural forms => simp [Entry.leafPaths, Entry.LeadsTo, Entry.content?]
  | node children below =>
      rw [Entry.isOrdered_node] at ordered
      have onward (pair : String × Entry) (member : pair ∈ children) (rest : List String) :
          rest ∈ pair.2.leafPaths ↔ ∃ content, pair.2.LeadsTo rest content :=
        below pair member (areOrdered_iff.mp ordered.2 pair member)
      have leads : (∃ content, Entry.LeadsTo (.node children) names content) ↔
          ∃ content, LeadsTo children names content := by
        simp [Entry.LeadsTo, Entry.content?]
      rw [Entry.leafPaths, leafPaths_eq_flatMap, List.mem_flatMap, leads,
        exists_leadsTo_iff ordered.1.nodup_keys]
      constructor
      · rintro ⟨⟨name, entry⟩, member, isPath⟩
        rcases List.mem_map.mp isPath with ⟨rest, isRest, rfl⟩
        rcases (onward _ member rest).mp isRest with ⟨content, leadsOn⟩
        exact ⟨name, entry, rest, content, rfl, member, leadsOn⟩
      · rintro ⟨name, entry, rest, content, rfl, member, leadsOn⟩
        refine ⟨(name, entry), member, List.mem_map.mpr ⟨rest, ?_, rfl⟩⟩
        exact (onward _ member rest).mpr ⟨content, leadsOn⟩

/-- The leaf paths of entries are those on which names lead to a text or to plural forms. -/
theorem mem_leafPaths_iff (ordered : entries.IsOrdered) :
    names ∈ leafPaths entries ↔ ∃ content, entries.LeadsTo names content := by
  have node : names ∈ Entry.leafPaths (.node entries) ↔ _ :=
    mem_leafPathsOf_iff (Entry.isOrdered_node.mpr ordered)
  simpa [Entry.leafPaths, Entry.LeadsTo, Entry.content?] using node

mutual

theorem leafKeysOf_eq : ∀ (entry : Entry) (path : String),
    leafKeysOf path entry = entry.leafPaths.map fun names => names.foldl joinPath path
  | .text content => by
      intro path
      rfl
  | .plural forms => by
      intro path
      rfl
  | .node children => by
      intro path
      rw [leafKeysOf, leafKeysBelow_eq children, Entry.leafPaths]

theorem leafKeysBelow_eq : ∀ (entries : List (String × Entry)) (path : String),
    leafKeysBelow path entries = (leafPaths entries).map fun names => names.foldl joinPath path
  | [] => by
      intro path
      rfl
  | (name, entry) :: rest => by
      intro path
      rw [leafKeysBelow, leafKeysOf_eq entry, leafKeysBelow_eq rest, leafPaths, List.map_append,
        List.map_map]
      rfl

end

/-- The leaf keys of entries are the keys of their leaf paths, in the same order. -/
theorem leafKeys_eq (entries : Entries) :
    entries.leafKeys = (leafPaths entries).map dottedKey := by
  rw [leafKeys, leafKeysBelow_eq]
  simp only [foldl_joinPath]

/-- The leaf keys of entries are the keys of the paths to a text or to plural forms. -/
theorem mem_leafKeys_iff (ordered : entries.IsOrdered) : key ∈ entries.leafKeys ↔
    ∃ names content, entries.LeadsTo names content ∧ dottedKey names = key := by
  rw [leafKeys_eq, List.mem_map]
  simp only [mem_leafPaths_iff ordered, exists_and_right]

theorem lookup?_dottedKey (plain : IsPlainPath names) (leads : entries.LeadsTo names content) :
    (entries.lookup? (dottedKey names)).bind Entry.content? = some content := by
  have nonempty : names ≠ [] := by
    rintro rfl
    exact not_leadsTo_nil leads
  rw [lookup?, keyNames_dottedKey plain nonempty]
  exact leads

end Entries

namespace Dictionary

theorem resolveIn?_eq_of_lookup {dictionary : Dictionary} {locale key : String} {entries : Entries}
    {content : Content} (present : dictionary.locales.lookup locale = some entries)
    (found : (entries.lookup? key).bind Entry.content? = some content) :
    dictionary.resolveIn? locale key = some ⟨content, locale⟩ := by
  rcases Option.bind_eq_some_iff.mp found with ⟨entry, reached, isContent⟩
  simp [resolveIn?, present, reached, isContent]

/--
The leaf keys of a locale of a loaded dictionary are the keys of its paths to a text or to plural
forms. The key of a plain path is one of all keys, resolves to what the path leads to in the locale
itself, and is not missing in the report on the locale, whatever the fallback is.
-/
theorem covers_own_keys {json : Json} {dictionary : Dictionary} (ordered : json.IsOrdered)
    (loaded : ofJson json = .ok dictionary) {locale : String} {entries : Entries}
    (present : dictionary.locales.lookup locale = some entries) (fallback : String) :
    (∀ key, key ∈ entries.leafKeys ↔
      ∃ names content, entries.LeadsTo names content ∧ dottedKey names = key) ∧
    ∀ names content, IsPlainPath names → entries.LeadsTo names content →
      dottedKey names ∈ dictionary.allKeys ∧
        dictionary.resolve? locale fallback (dottedKey names) = some ⟨content, locale⟩ ∧
        (∃ coverage ∈ (dictionary.coverage fallback).locales, coverage.locale = locale) ∧
        ∀ coverage ∈ (dictionary.coverage fallback).locales, coverage.locale = locale →
          dottedKey names ∉ coverage.missing := by
  have entriesOrdered := isOrdered_of_ofJson ordered loaded present
  have member : (locale, entries) ∈ dictionary.locales := Keyed.mem_of_lookup present
  refine ⟨fun key => Entries.mem_leafKeys_iff entriesOrdered, ?_⟩
  intro names content plain leads
  have resolved : dictionary.resolveIn? locale (dottedKey names) = some ⟨content, locale⟩ :=
    resolveIn?_eq_of_lookup present (Entries.lookup?_dottedKey plain leads)
  have isLeafKey : dottedKey names ∈ entries.leafKeys :=
    (Entries.mem_leafKeys_iff entriesOrdered).mpr ⟨names, content, leads, rfl⟩
  refine ⟨mem_allKeys.mpr ⟨_, member, isLeafKey⟩,
    resolve?_eq_some_iff.mpr ⟨resolved, Or.inl rfl⟩, ?_, ?_⟩
  · exact ⟨_, mem_locales_coverage.mpr ⟨locale, List.mem_map_of_mem member, rfl⟩, rfl⟩
  · rintro coverage reported rfl missing
    rcases mem_locales_coverage.mp reported with ⟨other, -, rfl⟩
    have absent := (mem_missingKeys.mp missing).2.1
    have found : dictionary.resolveIn? other (dottedKey names) = some ⟨content, other⟩ := resolved
    rw [found] at absent
    cases absent

/-- A single empty name and a path of two names are both plain, and neither is in the fallback. -/
theorem covers_own_keys_plain :
    let json : Json :=
      .object
        [("de", .object [("", .string "Leer"), ("nav", .object [("home", .string "Start")])]),
          ("en", .object [])]
    let entries : Entries := [("", .text "Leer"), ("nav", .node [("home", .text "Start")])]
    let dictionary : Dictionary := ⟨[("de", entries), ("en", [])]⟩
    let isCovered (names : List String) : Prop :=
      ∃ content, entries.LeadsTo names content ∧
        dictionary.resolve? "de" "en" (dottedKey names) = some ⟨content, "de"⟩ ∧
        ∃ coverage ∈ (dictionary.coverage "en").locales, coverage.locale = "de" ∧
          dottedKey names ∉ coverage.missing
    json.IsOrdered ∧ ofJson json = .ok dictionary ∧
      dictionary.locales.lookup "de" = some entries ∧
      ∀ names ∈ [[""], ["nav", "home"]], IsPlainPath names ∧ isCovered names := by
  intro json entries dictionary isCovered
  have ordered : json.IsOrdered := by
    simp only [json, Json.IsOrdered, Json.membersAreOrdered, Keyed.IsSorted]
    decide
  have loaded : ofJson json = .ok dictionary := by rfl
  have present : dictionary.locales.lookup "de" = some entries := by rfl
  have covered (names : List String) (content : Content) (plain : IsPlainPath names)
      (leads : entries.LeadsTo names content) : IsPlainPath names ∧ isCovered names := by
    rcases (covers_own_keys ordered loaded present "en").2 names content plain leads with
      ⟨-, resolved, ⟨coverage, reported, own⟩, notMissing⟩
    exact ⟨plain, content, leads, resolved, coverage, reported, own,
      notMissing coverage reported own⟩
  refine ⟨ordered, loaded, present, ?_⟩
  intro names member
  simp only [List.mem_cons, List.not_mem_nil, or_false] at member
  rcases member with rfl | rfl
  · exact covered [""] (.text "Leer") ⟨by decide, by decide⟩ (by rfl)
  · exact covered ["nav", "home"] (.text "Start") ⟨by decide, by decide⟩ (by rfl)

/-- A name with a dot, and a name below an empty one, have leaf keys that do not lead to them. -/
theorem missing_own_keys :
    let json : Json :=
      .object [("en", .object [("", .object [("x", .string "X")]), ("a.b", .string "AB")])]
    let entries : Entries := [("", .node [("x", .text "X")]), ("a.b", .text "AB")]
    let dictionary : Dictionary := ⟨[("en", entries)]⟩
    json.IsOrdered ∧ ofJson json = .ok dictionary ∧
      ∃ coverage ∈ (dictionary.coverage "en").locales, coverage.locale = "en" ∧
        ∀ key ∈ ["a.b", "x"], key ∈ entries.leafKeys ∧
          dictionary.resolve? "en" "en" key = none ∧ key ∈ coverage.missing := by
  intro json entries dictionary
  have ordered : json.IsOrdered := by
    simp only [json, Json.IsOrdered, Json.membersAreOrdered, Keyed.IsSorted]
    decide
  have loaded : ofJson json = .ok dictionary := by rfl
  have leaves : entries.leafKeys = ["x", "a.b"] := by
    simp [entries, Entries.leafKeys, Entries.leafKeysBelow, Entries.leafKeysOf, joinPath]
  refine ⟨ordered, loaded, _, mem_locales_coverage.mpr ⟨"en", List.mem_cons_self, rfl⟩, rfl, ?_⟩
  intro key member
  have isLeafKey : key ∈ entries.leafKeys := by
    rw [leaves]
    simpa [or_comm] using member
  have absent : dictionary.resolveIn? "en" key = none := by
    simp only [List.mem_cons, List.not_mem_nil, or_false] at member
    rcases member with rfl | rfl <;> rfl
  exact ⟨isLeafKey, resolve?_eq_none_iff.mpr ⟨absent, absent⟩,
    mem_missingKeys.mpr ⟨mem_allKeys.mpr ⟨_, List.mem_cons_self, isLeafKey⟩, absent, absent⟩⟩

end Dictionary

end LocalizedText
