import LocalizedText.Dictionary.Resolution
import LocalizedText.Dictionary.Validation
import LocalizedText.Proofs.Dictionary.Merging

/-!
# Complete dictionaries

A dictionary is complete when checking it has nothing to report: all plural forms have a text for
`other`, and wherever the names of a node include a category keyword they include `other`. Every key
of a complete dictionary that leads to plural forms leads to ones that have a text for every count.

Merging complete dictionaries gives a complete one. An entry that replaces another is complete by
itself. Of two nodes that are merged, the names are those of the one and the other together: if they
include a keyword, so do the names of one of the two, and then the same ones include `other`.
-/

namespace LocalizedText

mutual

/-- There is nothing to report at or below an entry. -/
def Entry.IsComplete : Entry → Prop
  | .text _ => True
  | .plural forms => forms.isComplete = true
  | .node children =>
      Entries.lacksOther (children.map Prod.fst) = false ∧ Entries.areComplete children

/-- There is nothing to report at or below each of the entries. -/
def Entries.areComplete : List (String × Entry) → Prop
  | [] => True
  | (_, entry) :: rest => entry.IsComplete ∧ Entries.areComplete rest

end

def Entries.IsComplete (entries : Entries) : Prop :=
  Entry.IsComplete (.node entries)

def Dictionary.IsComplete (dictionary : Dictionary) : Prop :=
  ∀ locale ∈ dictionary.locales, Entries.IsComplete locale.2

namespace Entries

theorem areComplete_iff {entries : List (String × Entry)} :
    areComplete entries ↔ ∀ pair ∈ entries, pair.2.IsComplete := by
  induction entries with
  | nil => simp [areComplete]
  | cons pair rest inductionHypothesis => simp [areComplete, inductionHypothesis]

theorem lacksOther_eq_false_iff {names : List String} :
    lacksOther names = false ↔
      (∃ name ∈ names, PluralCategory.isKeyword name = true) →
        PluralCategory.other.name ∈ names := by
  simp [lacksOther]

section Validation

mutual

theorem issuesOf_eq_nil_iff : ∀ (entry : Entry) (path : String),
    issuesOf path entry = [] ↔ entry.IsComplete
  | .text content => by simp [issuesOf, Entry.IsComplete]
  | .plural forms => by simp [issuesOf, Entry.IsComplete]
  | .node children => by
      intro path
      rw [issuesOf, List.append_eq_nil_iff, issuesBelow_eq_nil_iff children, Entry.IsComplete,
        And.comm]
      simp

theorem issuesBelow_eq_nil_iff : ∀ (entries : List (String × Entry)) (path : String),
    issuesBelow path entries = [] ↔ areComplete entries
  | [] => by simp [issuesBelow, areComplete]
  | (name, entry) :: rest => by
      intro path
      rw [issuesBelow, List.append_eq_nil_iff, issuesOf_eq_nil_iff entry,
        issuesBelow_eq_nil_iff rest, areComplete]

end

/-- Checking entries has nothing to report exactly when they are complete. -/
theorem issues_validate_eq_nil_iff {locale : String} {entries : Entries} :
    (validate locale entries).issues = [] ↔ entries.IsComplete := by
  rw [validate, List.map_eq_nil_iff, ← List.length_eq_zero_iff, List.length_mergeSort,
    List.length_eq_zero_iff, issuesOf_eq_nil_iff]
  rfl

end Validation

section Merging

theorem mem_names_merge {entries incoming : List (String × Entry)} {name : String} :
    name ∈ (merge entries incoming).map Prod.fst ↔
      name ∈ entries.map Prod.fst ∨ name ∈ incoming.map Prod.fst := by
  induction incoming generalizing entries with
  | nil => simp [merge]
  | cons pair rest inductionHypothesis =>
      rcases pair with ⟨first, entry⟩
      rw [merge, inductionHypothesis, Keyed.mem_keys_insert]
      rw [List.map_cons, List.mem_cons, or_assoc, or_left_comm]

theorem lacksOther_merge {entries incoming : List (String × Entry)}
    (existing : lacksOther (entries.map Prod.fst) = false)
    (new : lacksOther (incoming.map Prod.fst) = false) :
    lacksOther ((merge entries incoming).map Prod.fst) = false := by
  rw [lacksOther_eq_false_iff] at existing new ⊢
  rintro ⟨name, member, keyword⟩
  rcases mem_names_merge.mp member with known | added
  · exact mem_names_merge.mpr (Or.inl (existing ⟨name, known, keyword⟩))
  · exact mem_names_merge.mpr (Or.inr (new ⟨name, added, keyword⟩))

/-- What a complete entry leaves in place of a complete one is complete. -/
theorem overlay_isComplete {incoming : Entry} (incomingComplete : incoming.IsComplete)
    {existing : Option Entry} (complete : ∀ entry ∈ existing, entry.IsComplete) :
    (overlay existing incoming).IsComplete := by
  induction incoming generalizing existing with
  | text content => rwa [overlay]
  | plural forms => rwa [overlay]
  | node incoming below =>
      rcases overlay_node_cases existing incoming with ⟨children, rfl, merged⟩ | ⟨-, replaced⟩
      · have old := complete (.node children) rfl
        rw [Entry.IsComplete] at old incomingComplete
        rw [merged, Entry.IsComplete]
        refine ⟨lacksOther_merge old.1 incomingComplete.1, ?_⟩
        rw [merge_eq_mergeWith, areComplete_iff]
        apply Keyed.forall_mergeWith (areComplete_iff.mp old.2)
        intro pair member value valueComplete
        exact below pair member (areComplete_iff.mp incomingComplete.2 pair member) valueComplete
      · rwa [replaced]

/-- Merging complete entries gives complete entries. -/
theorem merge_isComplete {entries incoming : Entries} (complete : entries.IsComplete)
    (incomingComplete : incoming.IsComplete) : IsComplete (merge entries incoming) := by
  have nodes : (overlay (some (.node entries)) (.node incoming)).IsComplete := by
    apply overlay_isComplete incomingComplete
    rintro _ ⟨⟩
    exact complete
  rwa [overlay] at nodes

end Merging

/-- Every entry that a path leads to is complete. -/
theorem isComplete_of_find? {entries : List (String × Entry)} {names : List String} {entry : Entry}
    (complete : areComplete entries) (found : find? entries names = some entry) :
    entry.IsComplete := by
  induction names generalizing entries with
  | nil => cases found
  | cons name rest inductionHypothesis =>
      have below := areComplete_iff.mp complete
      cases rest with
      | nil => exact below (name, entry) (Keyed.mem_of_lookup found)
      | cons next rest =>
          rw [find?] at found
          split at found
          · next children reached =>
              have node := below (name, .node children) (Keyed.mem_of_lookup reached)
              rw [Entry.IsComplete] at node
              exact inductionHypothesis node.2 found
          · cases found
          · simp

end Entries

namespace Dictionary

variable {dictionary incoming : Dictionary}

/-- Checking a dictionary has nothing to report exactly when it is complete. -/
theorem validate_eq_empty_iff : dictionary.validate = {} ↔ dictionary.IsComplete := by
  rw [validate, ValidationReport.mk.injEq, List.flatMap_eq_nil_iff]
  exact forall₂_congr fun locale _ => Entries.issues_validate_eq_nil_iff

/-- Merging complete dictionaries gives a complete dictionary. -/
theorem IsComplete.merge (complete : dictionary.IsComplete)
    (incomingComplete : incoming.IsComplete) : (dictionary.merge incoming).IsComplete := by
  unfold IsComplete at complete incomingComplete ⊢
  rw [locales_merge]
  apply Keyed.forall_mergeWith complete
  intro locale member existing existingComplete
  apply Entries.merge_isComplete _ (incomingComplete locale member)
  cases existing with
  | none => simp [Entries.IsComplete, Entry.IsComplete, Entries.areComplete, Entries.lacksOther]
  | some entries => exact existingComplete entries rfl

/-- The plural forms that a key of a complete dictionary leads to have a text for every count. -/
theorem IsComplete.of_resolveIn? (complete : dictionary.IsComplete) {locale supplier key : String}
    {forms : PluralForms}
    (found : dictionary.resolveIn? locale key = some ⟨.plural forms, supplier⟩) :
    forms.isComplete = true := by
  simp only [resolveIn?, Option.bind_eq_bind, Option.bind_eq_some_iff] at found
  rcases found with ⟨entries, present, entry, reached, content, isContent, same⟩
  cases same
  have entriesComplete := complete (locale, entries) (Keyed.mem_of_lookup present)
  unfold Entries.IsComplete at entriesComplete
  rw [Entry.IsComplete] at entriesComplete
  have entryComplete := Entries.isComplete_of_find? entriesComplete.2 reached
  cases entry with
  | text content => cases isContent
  | node children => cases isContent
  | plural own =>
      cases isContent
      exact entryComplete

end Dictionary

end LocalizedText
