import LocalizedText.Dictionary.Basic
import LocalizedText.Proofs.Keyed
import Mathlib.Data.String.Basic

/-!
# Merging name by name

Merging combines what comes in under a name with what was there under it, for entries as well as for
the locales of a dictionary. What a name leads to afterwards can be read off both sides, and the names
stay in order on every level.
-/

namespace LocalizedText

namespace Entries

variable {entries incoming : Entries}

theorem merge_eq_mergeWith (entries incoming : Entries) :
    merge entries incoming = Keyed.mergeWith overlay entries incoming := by
  induction incoming generalizing entries with
  | nil => rfl
  | cons pair rest inductionHypothesis =>
      rcases pair with ⟨name, entry⟩
      rw [merge, inductionHypothesis]
      rfl

theorem lookup_merge (distinct : (incoming.map Prod.fst).Nodup) (entries : Entries)
    (name : String) :
    (merge entries incoming).lookup name =
      ((incoming.lookup name).map (overlay (entries.lookup name))).or (entries.lookup name) := by
  rw [merge_eq_mergeWith, Keyed.lookup_mergeWith distinct]

@[simp]
theorem overlay_none (entry : Entry) : overlay none entry = entry := by
  cases entry <;> simp [overlay]

/-- A node is merged into a node, and takes the place of anything else. -/
theorem overlay_node_cases (existing : Option Entry) (incoming : Entries) :
    (∃ children, existing = some (.node children) ∧
      overlay existing (.node incoming) = .node (merge children incoming)) ∨
    (∀ children, existing ≠ some (.node children)) ∧
      overlay existing (.node incoming) = .node incoming := by
  cases existing with
  | none => simp
  | some old => cases old <;> simp [overlay]

/-- What an ordered entry leaves in place of an ordered one is ordered. -/
theorem isOrdered_overlay {incoming : Entry} (incomingOrdered : incoming.IsOrdered)
    {existing : Option Entry} (ordered : ∀ entry ∈ existing, entry.IsOrdered) :
    (overlay existing incoming).IsOrdered := by
  induction incoming generalizing existing with
  | text content => rwa [overlay]
  | plural forms => rwa [overlay]
  | node incoming below =>
      rcases overlay_node_cases existing incoming with ⟨children, rfl, merged⟩ | ⟨-, replaced⟩
      · have old := ordered (.node children) rfl
        rw [Entry.isOrdered_node] at old incomingOrdered
        rw [merged, Entry.isOrdered_node, merge_eq_mergeWith]
        refine ⟨old.1.mergeWith, areOrdered_iff.mpr ?_⟩
        apply Keyed.forall_mergeWith (areOrdered_iff.mp old.2)
        intro pair member value valueOrdered
        exact below pair member (areOrdered_iff.mp incomingOrdered.2 pair member) valueOrdered
      · rwa [replaced]

/-- Merging keeps the names on every level in order. -/
theorem IsOrdered.merge (ordered : entries.IsOrdered) (incomingOrdered : incoming.IsOrdered) :
    IsOrdered (Entries.merge entries incoming) := by
  have nodes : (overlay (some (.node entries)) (.node incoming)).IsOrdered := by
    apply isOrdered_overlay (Entry.isOrdered_node.mpr incomingOrdered)
    simpa using ordered
  rwa [overlay, Entry.isOrdered_node] at nodes

end Entries

/-- The locales and the names on every level stand in strictly ascending order. -/
structure Dictionary.IsOrdered (dictionary : Dictionary) : Prop where
  locales : Keyed.IsSorted dictionary.locales
  entries : ∀ locale ∈ dictionary.locales, Entries.IsOrdered locale.2

namespace Dictionary

variable {dictionary incoming : Dictionary}

theorem isOrdered_iff : dictionary.IsOrdered ↔
    Keyed.IsSorted dictionary.locales ∧ ∀ locale ∈ dictionary.locales, Entries.IsOrdered locale.2 :=
  ⟨fun ordered => ⟨ordered.locales, ordered.entries⟩, fun ordered => ⟨ordered.1, ordered.2⟩⟩

instance (dictionary : Dictionary) : Decidable dictionary.IsOrdered :=
  have : Decidable (Keyed.IsSorted dictionary.locales) :=
    inferInstanceAs (Decidable (List.Pairwise _ dictionary.locales))
  decidable_of_iff _ isOrdered_iff.symm

theorem locales_merge (dictionary incoming : Dictionary) :
    (dictionary.merge incoming).locales =
      Keyed.mergeWith (fun existing entries => Entries.merge (existing.getD []) entries)
        dictionary.locales incoming.locales := by
  unfold merge
  generalize incoming.locales = locales
  induction locales generalizing dictionary with
  | nil => rfl
  | cons locale rest inductionHypothesis =>
      rw [List.foldl_cons, inductionHypothesis]
      rfl

/-- Merging keeps the locales and the names on every level in order. -/
theorem IsOrdered.merge (ordered : dictionary.IsOrdered) (incomingOrdered : incoming.IsOrdered) :
    (dictionary.merge incoming).IsOrdered where
  locales := by
    rw [locales_merge]
    exact ordered.locales.mergeWith
  entries := by
    rw [locales_merge]
    apply Keyed.forall_mergeWith ordered.entries
    intro locale member existing existingOrdered
    apply Entries.IsOrdered.merge _ (incomingOrdered.entries locale member)
    cases existing with
    | none => exact ⟨List.Pairwise.nil, by simp [Entries.areOrdered]⟩
    | some entries => exact existingOrdered entries rfl

end Dictionary

end LocalizedText
