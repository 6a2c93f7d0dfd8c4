import LocalizedText.Dictionary.Loading
import LocalizedText.Proofs.Json.Ordered

/-!
# What is loaded

An object is plural-shaped when it has members, each of them a text named by a category keyword. What
is loaded for a JSON value is told apart by this shape alone: a text for a text, the forms of a
plural-shaped object, and a node for any other object, with what is loaded for its members.

The relation between values and entries forgets the paths, which only errors need. It is read off the
loader once; all that follows about loaded dictionaries is by induction on it.
-/

namespace LocalizedText

theorem PluralCategory.name_injective : Function.Injective name := by
  intro left right same
  have named := congrArg ofName? same
  simpa [ofName?_name] using named

theorem PluralForms.eq_of_get? {left right : PluralForms}
    (same : ∀ category, left.get? category = right.get? category) : left = right := by
  cases left
  cases right
  simp only [mk.injEq]
  exact ⟨same .zero, same .one, same .two, same .few, same .many, same .other⟩

namespace Json

/-- A member is a text that is named by a category keyword. -/
def isVariant : String × Json → Bool
  | (name, .string _) => PluralCategory.isKeyword name
  | _ => false

/-- An object has members, and all of them are texts named by category keywords. -/
def isPluralShaped (members : List (String × Json)) : Bool :=
  !members.isEmpty && members.all isVariant

def textAt? (members : List (String × Json)) (name : String) : Option String :=
  match members.lookup name with
  | some (.string text) => some text
  | _ => none

/-- The texts of the members that the keywords name. -/
def formsOf (members : List (String × Json)) : PluralForms where
  zero := textAt? members "zero"
  one := textAt? members "one"
  two := textAt? members "two"
  few := textAt? members "few"
  many := textAt? members "many"
  other := textAt? members "other"

theorem get?_formsOf (members : List (String × Json)) (category : PluralCategory) :
    (formsOf members).get? category = textAt? members category.name := by
  cases category <;> rfl

theorem textAt?_cons_self (name text : String) (rest : List (String × Json)) :
    textAt? ((name, .string text) :: rest) name = some text := by
  simp [textAt?]

theorem textAt?_cons_of_ne {name other : String} (different : other ≠ name) (value : Json)
    (rest : List (String × Json)) : textAt? ((name, value) :: rest) other = textAt? rest other := by
  unfold textAt?
  rw [Keyed.lookup_cons_of_ne different]

theorem textAt?_eq_none {members : List (String × Json)} {name : String}
    (absent : name ∉ members.map Prod.fst) : textAt? members name = none := by
  simp [textAt?, Keyed.lookup_eq_none_iff.mpr absent]

theorem exists_of_isVariant {member : String × Json} (variant : isVariant member = true) :
    ∃ category : PluralCategory, ∃ text, member = (category.name, .string text) := by
  rcases member with ⟨name, value⟩
  cases value with
  | string text =>
      rcases Option.isSome_iff_exists.mp variant with ⟨category, named⟩
      rw [PluralCategory.ofName?_eq_some_iff] at named
      exact ⟨category, text, by rw [named]⟩
  | null | bool _ | number _ | array _ | object _ => cases variant

theorem isVariant_of_isPluralShaped {members : List (String × Json)}
    (shaped : isPluralShaped members = true) : ∀ member ∈ members, isVariant member = true := by
  simp only [isPluralShaped, Bool.and_eq_true, List.all_eq_true] at shaped
  exact shaped.2

end Json

namespace PluralForms

open Json

theorem addMembers?_of_isVariant {members : List (String × Json)}
    (variants : ∀ member ∈ members, isVariant member = true)
    (distinct : (members.map Prod.fst).Nodup) (forms : PluralForms) :
    ∃ added, addMembers? forms members = some added ∧
      ∀ category, added.get? category =
        (textAt? members category.name <|> forms.get? category) := by
  induction members generalizing forms with
  | nil => exact ⟨forms, rfl, fun category => by simp [textAt?]⟩
  | cons member rest inductionHypothesis =>
      rcases exists_of_isVariant (variants member (by simp)) with ⟨own, text, rfl⟩
      rcases List.nodup_cons.mp distinct with ⟨new, restDistinct⟩
      rcases inductionHypothesis (fun other isMember => variants other (by simp [isMember]))
        restDistinct (forms.insert own text) with ⟨added, isAdded, texts⟩
      refine ⟨added, by simpa [addMembers?, PluralCategory.ofName?_name] using isAdded, ?_⟩
      intro category
      rw [texts, get?_insert]
      by_cases same : category = own
      · subst same
        simp [textAt?_eq_none new, textAt?_cons_self]
      · have named : category.name ≠ own.name := PluralCategory.name_injective.ne same
        rw [if_neg same, textAt?_cons_of_ne named]

theorem addMembers?_eq_none {members : List (String × Json)} {member : String × Json}
    (isMember : member ∈ members) (notVariant : isVariant member = false) (forms : PluralForms) :
    addMembers? forms members = none := by
  induction members generalizing forms with
  | nil => cases isMember
  | cons first rest inductionHypothesis =>
      rcases first with ⟨name, value⟩
      unfold addMembers?
      split
      · next category text named =>
          rcases List.mem_cons.mp isMember with rfl | later
          · simp [isVariant, PluralCategory.isKeyword, named] at notVariant
          · exact inductionHypothesis later _
      · rfl

/-- Members are read as plural forms exactly when they are plural-shaped. -/
theorem ofMembers?_eq {members : List (String × Json)}
    (distinct : (members.map Prod.fst).Nodup) :
    ofMembers? members = if isPluralShaped members then some (formsOf members) else none := by
  unfold ofMembers? isPluralShaped
  cases members with
  | nil => rfl
  | cons first rest =>
      cases variants : (first :: rest).all isVariant with
      | true =>
          rcases addMembers?_of_isVariant (List.all_eq_true.mp variants) distinct {} with
            ⟨added, isAdded, texts⟩
          have same : added = formsOf (first :: rest) := by
            apply eq_of_get?
            intro category
            have unset : get? {} category = none := by cases category <;> rfl
            simp [texts, get?_formsOf, unset]
          simp [isAdded, same]
      | false =>
          rcases List.all_eq_false.mp variants with ⟨member, isMember, notVariant⟩
          rw [Bool.not_eq_true] at notVariant
          simp [addMembers?_eq_none isMember notVariant]

end PluralForms

mutual

/-- What is loaded for a JSON value. -/
inductive Json.Loads : Json → Entry → Prop where
  | text (content : String) : Json.Loads (.string content) (.text content)
  | plural {members : List (String × Json)} (shaped : Json.isPluralShaped members = true) :
      Json.Loads (.object members) (.plural (Json.formsOf members))
  | node {members : List (String × Json)} {children : List (String × Entry)}
      (unshaped : Json.isPluralShaped members = false) (below : Json.LoadsAll members children) :
      Json.Loads (.object members) (.node children)

/-- What is loaded for the members of an object. -/
inductive Json.LoadsAll : List (String × Json) → List (String × Entry) → Prop where
  | nil : Json.LoadsAll [] []
  | cons {name : String} {value : Json} {entry : Entry} {members : List (String × Json)}
      {entries : List (String × Entry)} (first : value.Loads entry)
      (rest : Json.LoadsAll members entries) :
      Json.LoadsAll ((name, value) :: members) ((name, entry) :: entries)

end

/-- What is loaded for the members of a dictionary. -/
inductive Json.LoadsLocales : List (String × Json) → List (String × Entries) → Prop where
  | nil : Json.LoadsLocales [] []
  | cons {locale : String} {inner members : List (String × Json)} {entries : Entries}
      {locales : List (String × Entries)} (first : Json.LoadsAll inner entries)
      (rest : Json.LoadsLocales members locales) :
      Json.LoadsLocales ((locale, .object inner) :: members) ((locale, entries) :: locales)

namespace Json

/-- A name is known to the members and to what is loaded for them, or to neither. -/
theorem LoadsAll.lookup {members : List (String × Json)} {entries : List (String × Entry)}
    (loaded : LoadsAll members entries) (name : String) :
    Option.Rel Loads (members.lookup name) (entries.lookup name) := by
  induction members generalizing entries with
  | nil =>
      cases loaded
      exact .none
  | cons member rest inductionHypothesis =>
      cases loaded with
      | cons first others =>
          simp only [List.lookup_cons]
          split
          · exact .some first
          · exact inductionHypothesis others

theorem LoadsLocales.lookup {members : List (String × Json)} {locales : List (String × Entries)}
    (loaded : LoadsLocales members locales) (locale : String) :
    Option.Rel (fun value entries => ∃ inner, value = .object inner ∧ LoadsAll inner entries)
      (members.lookup locale) (locales.lookup locale) := by
  induction loaded with
  | nil => exact .none
  | cons first others inductionHypothesis =>
      simp only [List.lookup_cons]
      split
      · exact .some ⟨_, rfl, first⟩
      · exact inductionHypothesis

theorem LoadsAll.names_eq {members : List (String × Json)} {entries : List (String × Entry)}
    (loaded : LoadsAll members entries) : entries.map Prod.fst = members.map Prod.fst := by
  induction members generalizing entries with
  | nil =>
      cases loaded
      rfl
  | cons member rest inductionHypothesis =>
      cases loaded with
      | cons first others => simp [inductionHypothesis others]

theorem LoadsLocales.names_eq {members : List (String × Json)} {locales : List (String × Entries)}
    (loaded : LoadsLocales members locales) : locales.map Prod.fst = members.map Prod.fst := by
  induction loaded with
  | nil => rfl
  | cons first others inductionHypothesis => simp [inductionHypothesis]

end Json

namespace Entries

mutual

theorem loads_of_entryOfJson : ∀ (value : Json) (path : String) (entry : Entry),
    value.IsOrdered → entryOfJson path value = .ok entry → value.Loads entry
  | .string content => by
      rintro path _ _ ⟨⟩
      exact .text content
  | .object members => by
      intro path entry ordered loaded
      rw [entryOfJson, PluralForms.ofMembers?_eq ordered.1.nodup_keys] at loaded
      cases shaped : Json.isPluralShaped members with
      | true =>
          rw [shaped] at loaded
          cases loaded
          exact .plural shaped
      | false =>
          rw [shaped] at loaded
          cases below : ofMembers path members with
          | error reason =>
              rw [below] at loaded
              cases loaded
          | ok children =>
              rw [below] at loaded
              cases loaded
              exact .node shaped (loadsAll_of_ofMembers members path children ordered.2 below)
  | .null | .bool _ | .number _ | .array _ => by
      rintro path entry _ ⟨⟩

theorem loadsAll_of_ofMembers : ∀ (members : List (String × Json)) (path : String)
    (entries : Entries), Json.membersAreOrdered members → ofMembers path members = .ok entries →
      Json.LoadsAll members entries
  | [] => by
      rintro path _ _ ⟨⟩
      exact .nil
  | (name, value) :: rest => by
      intro path entries ordered loaded
      rw [ofMembers] at loaded
      cases first : entryOfJson (joinPath path name) value with
      | error reason =>
          rw [first] at loaded
          cases loaded
      | ok entry =>
          cases others : ofMembers path rest with
          | error reason =>
              rw [first, others] at loaded
              cases loaded
          | ok later =>
              rw [first, others] at loaded
              cases loaded
              exact .cons (loads_of_entryOfJson value _ entry ordered.1 first)
                (loadsAll_of_ofMembers rest path later ordered.2 others)

end

end Entries

namespace Dictionary

theorem loadsLocales_of_localesOfMembers {members : List (String × Json)}
    {locales : List (String × Entries)} (ordered : Json.membersAreOrdered members)
    (loaded : localesOfMembers members = .ok locales) : Json.LoadsLocales members locales := by
  induction members generalizing locales with
  | nil =>
      cases loaded
      exact .nil
  | cons member rest inductionHypothesis =>
      rcases member with ⟨locale, value⟩
      rw [localesOfMembers] at loaded
      cases first : Entries.ofJsonAt locale value with
      | error reason =>
          rw [first] at loaded
          cases loaded
      | ok entries =>
          cases others : localesOfMembers rest with
          | error reason =>
              rw [first, others] at loaded
              cases loaded
          | ok later =>
              rw [first, others] at loaded
              cases loaded
              cases value with
              | object inner =>
                  have inside := Entries.loadsAll_of_ofMembers inner locale entries ordered.1.2 first
                  exact .cons inside (inductionHypothesis ordered.2 others)
              | null | bool _ | number _ | string _ | array _ => cases first

/-- A dictionary is only loaded from an object, and its locales are those of the object. -/
theorem exists_loadsLocales {json : Json} {dictionary : Dictionary} (ordered : json.IsOrdered)
    (loaded : ofJson json = .ok dictionary) :
    ∃ members, json = .object members ∧ Json.LoadsLocales members dictionary.locales := by
  cases json with
  | object members =>
      rw [ofJson] at loaded
      cases all : localesOfMembers members with
      | error reason =>
          rw [all] at loaded
          cases loaded
      | ok locales =>
          rw [all] at loaded
          cases loaded
          exact ⟨members, rfl, loadsLocales_of_localesOfMembers ordered.2 all⟩
  | null | bool _ | number _ | string _ | array _ => cases loaded

end Dictionary

namespace Json

/-- What is loaded for members in order stands in the same order. -/
theorem LoadsAll.isSorted {members : List (String × Json)} {entries : List (String × Entry)}
    (loaded : LoadsAll members entries) (sorted : Keyed.IsSorted members) :
    Keyed.IsSorted entries := by
  have names : (entries.map Prod.fst).Pairwise (· < ·) := by
    rw [loaded.names_eq]
    exact List.pairwise_map.mpr sorted
  exact List.pairwise_map.mp names

mutual

theorem isOrdered_of_loads : ∀ (value : Json) (entry : Entry), value.IsOrdered →
    value.Loads entry → entry.IsOrdered
  | .string _ => by
      rintro _ _ ⟨⟩
      simp [Entry.IsOrdered]
  | .object members => by
      intro entry ordered loaded
      cases loaded with
      | plural shaped => simp [Entry.IsOrdered]
      | node unshaped below =>
          rw [Entry.IsOrdered]
          exact ⟨below.isSorted ordered.1, areOrdered_of_loadsAll members _ ordered.2 below⟩
  | .null | .bool _ | .number _ | .array _ => by
      rintro _ _ ⟨⟩

theorem areOrdered_of_loadsAll : ∀ (members : List (String × Json))
    (entries : List (String × Entry)), membersAreOrdered members → LoadsAll members entries →
      Entries.areOrdered entries
  | [] => by
      rintro _ _ ⟨⟩
      simp [Entries.areOrdered]
  | (_, value) :: rest => by
      rintro _ ordered (_ | ⟨first, others⟩)
      rw [Entries.areOrdered]
      exact ⟨isOrdered_of_loads value _ ordered.1 first,
        areOrdered_of_loadsAll rest _ ordered.2 others⟩

end

end Json

/-- The entries of every locale of a loaded dictionary are ordered. -/
theorem Dictionary.isOrdered_of_ofJson {json : Json} {dictionary : Dictionary}
    (ordered : json.IsOrdered) (loaded : ofJson json = .ok dictionary) {locale : String}
    {entries : Entries} (present : dictionary.locales.lookup locale = some entries) :
    entries.IsOrdered := by
  rcases exists_loadsLocales ordered loaded with ⟨members, rfl, locales⟩
  have reached := locales.lookup locale
  rw [present] at reached
  generalize found : members.lookup locale = value at reached
  cases reached with
  | some first =>
      rcases first with ⟨inner, rfl, below⟩
      have innerOrdered : (Json.object inner).IsOrdered :=
        Json.membersAreOrdered_iff.mp ordered.2 _ (Keyed.mem_of_lookup found)
      exact ⟨below.isSorted innerOrdered.1,
        Json.areOrdered_of_loadsAll inner _ innerOrdered.2 below⟩

end LocalizedText
