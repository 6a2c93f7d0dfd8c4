import LocalizedText.Dictionary.Resolution
import LocalizedText.Proofs.Dictionary.Loading

/-!
# Keys as paths in JSON

A key of a loaded dictionary can be looked up in the JSON value that the dictionary was loaded from.
Its names lead from the object of a locale from one object to the next, but not through plural-shaped
objects; at the end stands a text, or a plural-shaped object with its forms. Looking the key up in the
dictionary gives the same, in the locale itself as well as in the fallback.
-/

namespace LocalizedText

namespace Json

/-- What a value has to say at the end of a key. -/
def content? : Json → Option Content
  | .string text => some (.text text)
  | .object members => if isPluralShaped members then some (.plural (formsOf members)) else none
  | _ => none

/-- What the names of a key lead to from the members of an object. -/
def contentBelow? (members : List (String × Json)) : List String → Option Content
  | [] => none
  | [name] => (members.lookup name).bind content?
  | name :: rest =>
      match members.lookup name with
      | some (.object inner) => if isPluralShaped inner then none else contentBelow? inner rest
      | _ => none

/-- What a key leads to in a locale, whose own object may have any shape. -/
def contentIn? (json : Json) (locale key : String) : Option Content :=
  match json with
  | .object members =>
      match members.lookup locale with
      | some (.object inner) =>
          contentBelow? inner ((key.toList.splitOn '.').map String.ofList)
      | _ => none
  | _ => none

/-- What a key leads to in a locale, or else in the fallback. -/
def resolve? (json : Json) (locale fallback key : String) : Option Resolution :=
  match json.contentIn? locale key with
  | some content => some { content, locale }
  | none => (json.contentIn? fallback key).map fun content => { content, locale := fallback }

theorem Loads.content? {value : Json} {entry : Entry} (loaded : value.Loads entry) :
    entry.content? = value.content? := by
  cases loaded with
  | text content => rfl
  | plural shaped => simp [Json.content?, Entry.content?, shaped]
  | node unshaped below => simp [Json.content?, Entry.content?, unshaped]

/-- Names lead to the same among the members and among what is loaded for them. -/
theorem LoadsAll.contentBelow? {members : List (String × Json)} {entries : List (String × Entry)}
    (loaded : LoadsAll members entries) (names : List String) :
    (Entries.find? entries names).bind Entry.content? = Json.contentBelow? members names := by
  induction names generalizing members entries with
  | nil => rfl
  | cons name rest inductionHypothesis =>
      have reached := loaded.lookup name
      cases rest with
      | nil =>
          rw [Entries.find?, Json.contentBelow?]
          generalize members.lookup name = value at reached ⊢
          generalize entries.lookup name = entry at reached ⊢
          cases reached with
          | none => rfl
          | some first => exact first.content?
      | cons next rest =>
          rw [Entries.find?, Json.contentBelow?]
          · generalize members.lookup name = value at reached ⊢
            generalize entries.lookup name = entry at reached ⊢
            cases reached with
            | none => rfl
            | some first =>
                cases first with
                | text content => rfl
                | plural shaped => simp [shaped]
                | node unshaped below => simpa [unshaped] using inductionHypothesis below
          all_goals simp

end Json

namespace Dictionary

variable {json : Json} {dictionary : Dictionary}

theorem resolveIn?_of_ofJson (ordered : json.IsOrdered) (loaded : ofJson json = .ok dictionary)
    (locale key : String) :
    dictionary.resolveIn? locale key =
      (json.contentIn? locale key).map fun content => { content, locale } := by
  rcases exists_loadsLocales ordered loaded with ⟨members, rfl, locales⟩
  have reached := locales.lookup locale
  simp only [resolveIn?, Json.contentIn?]
  generalize members.lookup locale = value at reached ⊢
  generalize dictionary.locales.lookup locale = entries at reached ⊢
  cases reached with
  | none => rfl
  | @some _ entries first =>
      rcases first with ⟨inner, rfl, below⟩
      simp only [← below.contentBelow?, Option.bind_eq_bind, Option.bind_some, Entries.lookup?,
        keyNames]
      cases entries.find? ((key.toList.splitOn '.').map String.ofList) with
      | none => rfl
      | some entry => cases entry <;> rfl

/--
Looking a key up in a loaded dictionary is following its names in the JSON value, in the locale that
was asked for and then in the fallback.
-/
theorem resolve?_of_ofJson (ordered : json.IsOrdered) (loaded : ofJson json = .ok dictionary)
    (locale fallback key : String) :
    dictionary.resolve? locale fallback key = json.resolve? locale fallback key := by
  unfold resolve? Json.resolve?
  rw [resolveIn?_of_ofJson ordered loaded, resolveIn?_of_ofJson ordered loaded]
  cases here : json.contentIn? locale key with
  | some content => rfl
  | none =>
      by_cases same : fallback = locale
      · -- The fallback is not asked again, but it has nothing there.
        simp [same, here]
      · simp [same]

/-- The forms of the fallback are found, and nothing is found below them. -/
theorem resolve?_of_ofJson_fallback :
    let items : List (String × Json) := [("one", .string "item"), ("other", .string "items")]
    let json : Json :=
      .object [("de", .object [("one", .string "eins")]), ("en", .object [("items", .object items)])]
    let dictionary : Dictionary :=
      ⟨[("de", [("one", .text "eins")]), ("en", [("items", .plural (Json.formsOf items))])]⟩
    json.IsOrdered ∧ ofJson json = .ok dictionary ∧
      (∀ key, dictionary.resolve? "de" "en" key = json.resolve? "de" "en" key) ∧
      json.resolve? "de" "en" "one" = some ⟨.text "eins", "de"⟩ ∧
      json.resolve? "de" "en" "items" = some ⟨.plural (Json.formsOf items), "en"⟩ ∧
      json.resolve? "de" "en" "items.one" = none := by
  intro items json dictionary
  have ordered : json.IsOrdered := by
    simp only [json, items, Json.IsOrdered, Json.membersAreOrdered, Keyed.IsSorted]
    decide
  have loaded : ofJson json = .ok dictionary := by rfl
  exact ⟨ordered, loaded, resolve?_of_ofJson ordered loaded "de" "en", by rfl, by rfl, by rfl⟩

end Dictionary

end LocalizedText
