import LocalizedText.Proofs.Dictionary.Merging

/-!
# Merging again

Entries include others when each of the others has its place among them: a text or plural forms as
they are, and a node as a node that includes it in turn. Merging leaves entries that include all that
came in, and entries are left as they are by merging what they include. So a dictionary that was merged
in can be merged in again, and nothing changes any more.

Entries also include themselves. That is no special case: they are what merging leaves of them where
nothing was before.
-/

namespace LocalizedText

/-- An incoming entry has its place in an existing one. -/
inductive Entry.Includes : Entry → Entry → Prop where
  | text (content : String) : Entry.Includes (.text content) (.text content)
  | plural (forms : PluralForms) : Entry.Includes (.plural forms) (.plural forms)
  | node {children incoming : List (String × Entry)}
      (known : ∀ pair ∈ incoming, (children.lookup pair.1).isSome)
      (below : ∀ pair ∈ incoming, ∀ existing, children.lookup pair.1 = some existing →
        existing.Includes pair.2) :
      Entry.Includes (.node children) (.node incoming)

/-- Each of the incoming entries has its place in the existing one of its name. -/
def Entries.Includes (entries incoming : Entries) : Prop :=
  ∀ pair ∈ incoming, ∃ existing, entries.lookup pair.1 = some existing ∧ existing.Includes pair.2

theorem Entry.includes_node_iff {children incoming : Entries} :
    Entry.Includes (.node children) (.node incoming) ↔ children.Includes incoming := by
  constructor
  · rintro (_ | _ | ⟨known, below⟩) pair member
    rcases Option.isSome_iff_exists.mp (known pair member) with ⟨existing, found⟩
    exact ⟨existing, found, below pair member existing found⟩
  · intro included
    refine .node ?_ ?_
    · intro pair member
      rcases included pair member with ⟨existing, found, -⟩
      simp [found]
    · intro pair member other isOther
      rcases included pair member with ⟨existing, found, includes⟩
      rw [found, Option.some.injEq] at isOther
      rwa [← isOther]

namespace Entries

variable {entries incoming : Entries}

/-- An ordered entry that includes an incoming one is all that is left of the two. -/
theorem overlay_of_includes {existing incoming : Entry} (ordered : existing.IsOrdered)
    (included : existing.Includes incoming) : overlay (some existing) incoming = existing := by
  induction incoming generalizing existing with
  | text content =>
      cases included
      rw [overlay]
  | plural forms =>
      cases included
      rw [overlay]
  | node incoming below =>
      cases existing with
      | text content => cases included
      | plural forms => cases included
      | node children =>
          rw [Entry.includes_node_iff] at included
          rw [Entry.isOrdered_node] at ordered
          rw [overlay, merge_eq_mergeWith, ordered.1.mergeWith_eq_self]
          intro pair member
          rcases included pair member with ⟨existing, found, includes⟩
          have existingOrdered := areOrdered_iff.mp ordered.2 _ (Keyed.mem_of_lookup found)
          exact ⟨existing, found, below pair member existingOrdered includes⟩

/-- Entries are left as they are by merging what they include. -/
theorem merge_of_includes (ordered : entries.IsOrdered) (included : entries.Includes incoming) :
    merge entries incoming = entries := by
  have same : overlay (some (.node entries)) (.node incoming) = .node entries := by
    apply overlay_of_includes
    · exact Entry.isOrdered_node.mpr ordered
    · exact Entry.includes_node_iff.mpr included
  rwa [overlay, Entry.node.injEq] at same

/-- Whatever was there before, merging leaves an entry that includes the incoming one. -/
theorem includes_overlay {incoming : Entry} (ordered : incoming.IsOrdered)
    (existing : Option Entry) : (overlay existing incoming).Includes incoming := by
  induction incoming generalizing existing with
  | text content =>
      rw [overlay]
      exact .text content
  | plural forms =>
      rw [overlay]
      exact .plural forms
  | node incoming below =>
      rw [Entry.isOrdered_node] at ordered
      have distinct := ordered.1.nodup_keys
      have stands (pair : String × Entry) (member : pair ∈ incoming) :
          incoming.lookup pair.1 = some pair.2 := (Keyed.lookup_eq_some_iff distinct).mpr member
      have includes (pair : String × Entry) (member : pair ∈ incoming) (old : Option Entry) :
          (overlay old pair.2).Includes pair.2 :=
        below pair member (areOrdered_iff.mp ordered.2 pair member) old
      rcases overlay_node_cases existing incoming with ⟨children, rfl, merged⟩ | ⟨-, replaced⟩
      · rw [merged, Entry.includes_node_iff]
        intro pair member
        refine ⟨_, ?_, includes pair member (children.lookup pair.1)⟩
        rw [lookup_merge distinct, stands pair member]
        rfl
      · rw [replaced, Entry.includes_node_iff]
        intro pair member
        refine ⟨pair.2, stands pair member, ?_⟩
        simpa using includes pair member none

/-- Merged entries include what came in. -/
theorem includes_merge (ordered : incoming.IsOrdered) (entries : Entries) :
    Includes (merge entries incoming) incoming := by
  have included := includes_overlay (Entry.isOrdered_node.mpr ordered) (some (.node entries))
  rwa [overlay, Entry.includes_node_iff] at included

theorem includes_self (ordered : entries.IsOrdered) : entries.Includes entries := by
  have included := includes_overlay (Entry.isOrdered_node.mpr ordered) none
  rwa [overlay_none, Entry.includes_node_iff] at included

end Entries

namespace Dictionary

variable {dictionary incoming : Dictionary}

/-- A dictionary whose locales include the incoming ones is left as it is by merging. -/
theorem merge_of_includes (ordered : dictionary.IsOrdered)
    (included : ∀ locale ∈ incoming.locales, ∃ entries,
      dictionary.locales.lookup locale.1 = some entries ∧ Entries.Includes entries locale.2) :
    dictionary.merge incoming = dictionary := by
  rw [Dictionary.mk.injEq, locales_merge, ordered.locales.mergeWith_eq_self]
  intro locale member
  rcases included locale member with ⟨entries, found, includes⟩
  have entriesOrdered := ordered.entries _ (Keyed.mem_of_lookup found)
  exact ⟨entries, found, Entries.merge_of_includes entriesOrdered includes⟩

/-- Loading translations again changes nothing, and neither does loading those of the dictionary. -/
theorem merge_idempotent (ordered : dictionary.IsOrdered) (incomingOrdered : incoming.IsOrdered) :
    (dictionary.merge incoming).merge incoming = dictionary.merge incoming ∧
      dictionary.merge dictionary = dictionary := by
  constructor
  · apply merge_of_includes (ordered.merge incomingOrdered)
    intro locale member
    have distinct := incomingOrdered.locales.nodup_keys
    have found := (Keyed.lookup_eq_some_iff distinct).mpr member
    refine ⟨Entries.merge ((dictionary.locales.lookup locale.1).getD []) locale.2, ?_, ?_⟩
    · rw [locales_merge, Keyed.lookup_mergeWith distinct, found]
      rfl
    · exact Entries.includes_merge (incomingOrdered.entries locale member) _
  · apply merge_of_includes ordered
    intro locale member
    have found := (Keyed.lookup_eq_some_iff ordered.locales.nodup_keys).mpr member
    exact ⟨locale.2, found, Entries.includes_self (ordered.entries locale member)⟩

/-- A node that took the place of a text, and a text that took the place of a node, stay there. -/
theorem merge_idempotent_replaced :
    let dictionary : Dictionary :=
      ⟨[("de", [("menu", .text "Menü"), ("title", .node [("short", .text "Titel")])])]⟩
    let incoming : Dictionary :=
      ⟨[("de", [("menu", .node [("home", .text "Start")]), ("title", .text "Titel")]), ("en", [])]⟩
    dictionary.IsOrdered ∧ incoming.IsOrdered ∧
      dictionary.merge incoming ≠ dictionary ∧
      (dictionary.merge incoming).merge incoming = dictionary.merge incoming ∧
      dictionary.merge dictionary = dictionary := by
  intro dictionary incoming
  have ordered : dictionary.IsOrdered := by decide
  have incomingOrdered : incoming.IsOrdered := by decide
  refine ⟨ordered, incomingOrdered, ?_, merge_idempotent ordered incomingOrdered⟩
  intro same
  exact absurd (congrArg tags same) (by decide)

end Dictionary

end LocalizedText
