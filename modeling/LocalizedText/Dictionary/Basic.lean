import LocalizedText.Keyed
import LocalizedText.Plural.Forms

/-!
# Dictionaries

A dictionary holds the entries of every locale. An entry is a text, a set of plural forms, or a node
with further entries below it, which a dotted key reaches. All entries stand in ascending order of
their names.
-/

namespace LocalizedText

/-- An entry of a dictionary. -/
inductive Entry where
  | text (content : String)
  | plural (forms : PluralForms)
  | node (children : List (String × Entry))

instance : Inhabited Entry := ⟨.text ""⟩

mutual

/--
What holds of all texts and plural forms, and of a node whenever it holds of all that is directly below
it, holds of every entry.
-/
@[elab_as_elim, induction_eliminator]
theorem Entry.membersInduction {motive : Entry → Prop}
    (text : ∀ content, motive (.text content)) (plural : ∀ forms, motive (.plural forms))
    (node : ∀ children, (∀ pair ∈ children, motive pair.2) → motive (.node children)) :
    ∀ entry, motive entry
  | .text content => text content
  | .plural forms => plural forms
  | .node children => node children (Entry.forall_members text plural node children)

theorem Entry.forall_members {motive : Entry → Prop}
    (text : ∀ content, motive (.text content)) (plural : ∀ forms, motive (.plural forms))
    (node : ∀ children, (∀ pair ∈ children, motive pair.2) → motive (.node children)) :
    ∀ children : List (String × Entry), ∀ pair ∈ children, motive pair.2
  | [] => by simp
  | (_, entry) :: rest => by
      rw [List.forall_mem_cons]
      exact ⟨Entry.membersInduction text plural node entry,
        Entry.forall_members text plural node rest⟩

end

/-- Entries by name, in ascending order of their names. -/
abbrev Entries := List (String × Entry)

mutual

/-- The names below an entry stand in strictly ascending order on every level. -/
def Entry.IsOrdered : Entry → Prop
  | .text _ => True
  | .plural _ => True
  | .node children => Keyed.IsSorted children ∧ Entries.areOrdered children

/-- The names below each of the entries stand in strictly ascending order. -/
def Entries.areOrdered : List (String × Entry) → Prop
  | [] => True
  | (_, entry) :: rest => entry.IsOrdered ∧ Entries.areOrdered rest

end

/-- The names stand in strictly ascending order on every level. -/
def Entries.IsOrdered (entries : Entries) : Prop :=
  Keyed.IsSorted entries ∧ Entries.areOrdered entries

@[simp]
theorem Entry.isOrdered_node {children : Entries} :
    Entry.IsOrdered (.node children) ↔ children.IsOrdered := by
  rw [Entry.IsOrdered, Entries.IsOrdered]

mutual

/-- Whether all names below an entry stand in order can be checked. -/
instance Entry.decidableIsOrdered : (entry : Entry) → Decidable entry.IsOrdered
  | .text _ => .isTrue trivial
  | .plural _ => .isTrue trivial
  | .node children =>
      have := Entries.decidableAreOrdered children
      inferInstanceAs (Decidable (List.Pairwise _ children ∧ Entries.areOrdered children))

instance Entries.decidableAreOrdered :
    (entries : List (String × Entry)) → Decidable (Entries.areOrdered entries)
  | [] => .isTrue trivial
  | (_, entry) :: rest =>
      have := Entry.decidableIsOrdered entry
      have := Entries.decidableAreOrdered rest
      inferInstanceAs (Decidable (entry.IsOrdered ∧ Entries.areOrdered rest))

end

instance (entries : Entries) : Decidable entries.IsOrdered :=
  inferInstanceAs (Decidable (List.Pairwise _ entries ∧ Entries.areOrdered entries))

theorem Entries.areOrdered_iff {entries : List (String × Entry)} :
    Entries.areOrdered entries ↔ ∀ pair ∈ entries, pair.2.IsOrdered := by
  induction entries with
  | nil => simp [areOrdered]
  | cons pair rest inductionHypothesis => simp [areOrdered, inductionHypothesis]

/-- A path with one more name; the first name of a path has no dot in front. -/
def joinPath (path name : String) : String :=
  if path.isEmpty then name else path ++ "." ++ name

/-- The names on a dotted key. -/
def keyNames (key : String) : List String :=
  (key.toList.splitOn '.').map String.ofList

namespace Entries

/-- The entry that a path of names leads to. -/
def find? (entries : Entries) : List String → Option Entry
  | [] => none
  | [name] => entries.lookup name
  | name :: rest =>
      match entries.lookup name with
      | some (.node children) => find? children rest
      | _ => none

/-- The entry that a dotted key leads to. -/
def lookup? (entries : Entries) (key : String) : Option Entry :=
  find? entries (keyNames key)

mutual

/-- The dotted keys of the texts and plural forms at or below an entry on a path. -/
def leafKeysOf (path : String) : Entry → List String
  | .text _ => [path]
  | .plural _ => [path]
  | .node children => leafKeysBelow path children

/-- The dotted keys of the texts and plural forms below a path. -/
def leafKeysBelow (path : String) : List (String × Entry) → List String
  | [] => []
  | (name, entry) :: rest => leafKeysOf (joinPath path name) entry ++ leafKeysBelow path rest

end

/-- The dotted keys of all texts and plural forms. -/
def leafKeys (entries : Entries) : List String :=
  leafKeysBelow "" entries

mutual

/-- What an incoming entry leaves in place of an existing one: two nodes are merged. -/
def overlay (existing : Option Entry) : Entry → Entry
  | .text content => .text content
  | .plural forms => .plural forms
  | .node incoming =>
      match existing with
      | some (.node children) => .node (merge children incoming)
      | _ => .node incoming

/-- The entries with others merged in; entries other than nodes replace what was there. -/
def merge (entries : List (String × Entry)) : List (String × Entry) → List (String × Entry)
  | [] => entries
  | (name, entry) :: rest =>
      merge (Keyed.insert name (overlay (entries.lookup name) entry) entries) rest

end

end Entries

/-- The entries of every locale, in ascending order of the locale tags. -/
structure Dictionary where
  locales : List (String × Entries) := []

instance : Inhabited Dictionary := ⟨{}⟩

namespace Dictionary

/-- The dictionary with the entries of a locale set. -/
def insert (dictionary : Dictionary) (locale : String) (entries : Entries) : Dictionary :=
  ⟨Keyed.insert locale entries dictionary.locales⟩

/-- The dictionary with entries merged into those of a locale. -/
def mergeLocale (dictionary : Dictionary) (locale : String) (entries : Entries) : Dictionary :=
  dictionary.insert locale
    (Entries.merge ((dictionary.locales.lookup locale).getD []) entries)

/-- The dictionary with all locales of another one merged in. -/
def merge (dictionary incoming : Dictionary) : Dictionary :=
  incoming.locales.foldl (fun dictionary (locale, entries) => dictionary.mergeLocale locale entries)
    dictionary

/-- The locale tags that have entries. -/
def tags (dictionary : Dictionary) : List String :=
  dictionary.locales.map Prod.fst

end Dictionary

end LocalizedText
