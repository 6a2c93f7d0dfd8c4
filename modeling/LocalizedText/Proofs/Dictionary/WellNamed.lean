import LocalizedText.Proofs.Dictionary.LeafOrder

/-!
# Well-named entries

Entries are well named when no name on any level is empty or has a dot in it. Flattening well-named
entries and looking keys up in them are inverse to one another: the leaf keys are just the keys that
lead to a text or to plural forms, and none of them is listed twice.
-/

namespace LocalizedText

mutual

/-- No name below an entry is empty or has a dot in it. -/
def Entry.IsWellNamed : Entry → Prop
  | .text _ => True
  | .plural _ => True
  | .node children => Entries.AreWellNamed children

/-- No name of entries, or below them, is empty or has a dot in it. -/
def Entries.AreWellNamed : List (String × Entry) → Prop
  | [] => True
  | (name, entry) :: rest =>
      (name ≠ "" ∧ '.' ∉ name.toList) ∧ entry.IsWellNamed ∧ Entries.AreWellNamed rest

end

namespace Entries

variable {entries : Entries} {key : String} {names : List String} {content : Content}

theorem areWellNamed_iff : AreWellNamed entries ↔
    ∀ pair ∈ entries, (pair.1 ≠ "" ∧ '.' ∉ pair.1.toList) ∧ pair.2.IsWellNamed := by
  induction entries with
  | nil => simp [AreWellNamed]
  | cons pair rest inductionHypothesis => simp [AreWellNamed, inductionHypothesis, and_assoc]

/-- The names on a path are names of entries. -/
theorem AreWellNamed.of_leadsTo (wellNamed : AreWellNamed entries)
    (leads : entries.LeadsTo names content) : ∀ name ∈ names, name ≠ "" ∧ '.' ∉ name.toList := by
  induction names generalizing entries with
  | nil => exact absurd leads not_leadsTo_nil
  | cons name rest inductionHypothesis =>
      rcases leadsTo_cons.mp leads with ⟨entry, found, leadsOn⟩
      have named := areWellNamed_iff.mp wellNamed (name, entry) (Keyed.mem_of_lookup found)
      rw [List.forall_mem_cons]
      refine ⟨named.1, ?_⟩
      rcases leadsOn with ⟨rfl, -⟩ | ⟨children, rfl, below⟩
      · simp
      · have childrenNamed := named.2
        rw [Entry.IsWellNamed] at childrenNamed
        exact inductionHypothesis childrenNamed below

theorem AreWellNamed.isPlainPath (wellNamed : AreWellNamed entries)
    (leads : entries.LeadsTo names content) : IsPlainPath names := by
  have named := wellNamed.of_leadsTo leads
  refine ⟨fun name member => (named name member).2, ?_⟩
  intro empty
  exact absurd rfl (named "" (List.mem_of_mem_head? empty)).1

theorem nodup_leafKeys (ordered : entries.IsOrdered) (wellNamed : AreWellNamed entries) :
    entries.leafKeys.Nodup := by
  have distinct : (leafPaths entries).Nodup := by
    refine (pairwise_leafPaths ordered).imp ?_
    rintro first _ smaller rfl
    exact List.lt_irrefl first smaller
  rw [leafKeys_eq]
  refine List.Nodup.map_on ?_ distinct
  intro names isPath other isOther same
  rcases (mem_leafPaths_iff ordered).mp isPath with ⟨content, leads⟩
  rcases (mem_leafPaths_iff ordered).mp isOther with ⟨otherContent, otherLeads⟩
  have nonempty : names ≠ [] := by
    rintro rfl
    exact not_leadsTo_nil leads
  have otherNonempty : other ≠ [] := by
    rintro rfl
    exact not_leadsTo_nil otherLeads
  -- The names on a plain path are read off its key.
  rw [← keyNames_dottedKey (wellNamed.isPlainPath leads) nonempty, same,
    keyNames_dottedKey (wellNamed.isPlainPath otherLeads) otherNonempty]

/--
The leaf keys of well-named entries are the keys that lead to a text or to plural forms, each listed
once.
-/
theorem leafKeys_of_areWellNamed (ordered : entries.IsOrdered) (wellNamed : AreWellNamed entries) :
    (∀ key, key ∈ entries.leafKeys ↔
      ∃ entry content, entries.lookup? key = some entry ∧ entry.content? = some content) ∧
    entries.leafKeys.Nodup := by
  refine ⟨?_, nodup_leafKeys ordered wellNamed⟩
  intro key
  rw [mem_leafKeys_iff ordered]
  constructor
  · rintro ⟨names, content, leads, rfl⟩
    have found := lookup?_dottedKey (wellNamed.isPlainPath leads) leads
    rcases Option.bind_eq_some_iff.mp found with ⟨entry, reached, isContent⟩
    exact ⟨entry, content, reached, isContent⟩
  · rintro ⟨entry, content, reached, isContent⟩
    have leads : entries.LeadsTo (keyNames key) content :=
      Option.bind_eq_some_iff.mpr ⟨entry, reached, isContent⟩
    refine ⟨keyNames key, content, leads, ?_⟩
    rw [dottedKey_of_isPlainPath (wellNamed.isPlainPath leads), intercalate_keyNames]

/-- A key that is a front of another one does not lead to what the longer one leads to. -/
theorem leafKeys_of_areWellNamed_menu :
    let forms : PluralForms := { other := some "items" }
    let entries : Entries :=
      [("menu", .node [("cart", .plural forms), ("home", .text "Home")]), ("menu-title", .text "Menu")]
    entries.IsOrdered ∧ AreWellNamed entries ∧ entries.leafKeys.Nodup ∧
      "menu.cart" ∈ entries.leafKeys ∧ "menu-title" ∈ entries.leafKeys ∧
      "menu" ∉ entries.leafKeys ∧ "menu.cart.other" ∉ entries.leafKeys := by
  intro forms entries
  have ordered : entries.IsOrdered := by decide
  have wellNamed : AreWellNamed entries := by
    simp [entries, AreWellNamed, Entry.IsWellNamed]
  rcases leafKeys_of_areWellNamed ordered wellNamed with ⟨listed, once⟩
  refine ⟨ordered, wellNamed, once, ?_, ?_, ?_, ?_⟩
  · exact (listed "menu.cart").mpr ⟨_, _, rfl, rfl⟩
  · exact (listed "menu-title").mpr ⟨_, _, rfl, rfl⟩
  · rw [listed]
    rintro ⟨entry, content, found, isContent⟩
    cases found
    cases isContent
  · rw [listed]
    rintro ⟨entry, content, found, isContent⟩
    cases found

end Entries

end LocalizedText
