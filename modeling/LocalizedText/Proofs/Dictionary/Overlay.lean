import LocalizedText.Proofs.Dictionary.LeafKeys
import LocalizedText.Proofs.Dictionary.Merging

/-!
# Keys in merged entries

In merged entries the incoming ones decide what a key leads to, wherever they have something to say:
they lead to something themselves, or a text or plural forms of theirs stand on the way, which nothing
can stand below. Everywhere else the existing entries show through.

A single name is looked up first. A path of names follows by induction on the names, since two nodes
of one name are merged again and any other entry takes the place of what was there.
-/

namespace LocalizedText

namespace Entries

variable {entries incoming : Entries} {name key : String} {names : List String}

/-- Texts and plural forms take the place of whatever was there. -/
theorem overlay_of_content? {entry : Entry} {content : Content}
    (isContent : entry.content? = some content) (existing : Option Entry) :
    overlay existing entry = entry := by
  cases entry with
  | text _ => rw [overlay]
  | plural _ => rw [overlay]
  | node _ => cases isContent

/-- Texts and plural forms, which nothing stands below, are on the way of a path of names. -/
def blocks (entries : Entries) : List String → Bool
  | [] => false
  | [_] => false
  | name :: rest =>
      match entries.lookup name with
      | some (.node children) => blocks children rest
      | some _ => true
      | none => false

/-- A text or plural forms stand at a proper prefix of a key that ends in front of a dot. -/
def IsBlocked (entries : Entries) (key : String) : Prop :=
  ∃ above below content, key = above ++ "." ++ below ∧
    (entries.lookup? above).bind Entry.content? = some content

theorem leadsAbove_cons :
    (∃ above below content, name :: names = above ++ below ∧ below ≠ [] ∧
      entries.LeadsTo above content) ↔
    ∃ entry, entries.lookup name = some entry ∧
      ∃ above below content, names = above ++ below ∧ below ≠ [] ∧
        entry.LeadsTo above content := by
  constructor
  · rintro ⟨_ | ⟨first, above⟩, below, content, parts, nonempty, leads⟩
    · exact absurd leads not_leadsTo_nil
    · rw [List.cons_append, List.cons.injEq] at parts
      rcases parts with ⟨rfl, rfl⟩
      rcases leadsTo_cons.mp leads with ⟨entry, found, leadsOn⟩
      exact ⟨entry, found, above, below, content, rfl, nonempty, leadsOn⟩
  · rintro ⟨entry, found, above, below, content, rfl, nonempty, leads⟩
    exact ⟨name :: above, below, content, rfl, nonempty, leadsTo_cons.mpr ⟨entry, found, leads⟩⟩

/-- A path is blocked when a part of it, but not the whole, leads to a text or to plural forms. -/
theorem blocks_iff : blocks entries names = true ↔
    ∃ above below content, names = above ++ below ∧ below ≠ [] ∧
      entries.LeadsTo above content := by
  induction names generalizing entries with
  | nil => simp [blocks]
  | cons name rest inductionHypothesis =>
      rw [leadsAbove_cons]
      cases rest with
      | nil => simp [blocks]
      | cons next rest =>
          rw [blocks]
          · cases entries.lookup name with
            | none => simp
            | some entry =>
                cases entry <;> simp [inductionHypothesis, Entry.LeadsTo, Entry.content?]
          · simp

theorem isOrdered_of_lookup (ordered : entries.IsOrdered) {children : List (String × Entry)}
    (found : entries.lookup name = some (.node children)) : IsOrdered children := by
  have below := areOrdered_iff.mp ordered.2 (name, .node children) (Keyed.mem_of_lookup found)
  rwa [Entry.isOrdered_node] at below

section Below

variable {children : List (String × Entry)} {next : String} {rest : List String}

/-- A path with names behind its first one goes on below a node. -/
theorem find?_below (found : entries.lookup name = some (.node children)) :
    find? entries (name :: next :: rest) = find? children (next :: rest) := by
  simp [find?, found]

theorem blocks_below (found : entries.lookup name = some (.node children)) :
    blocks entries (name :: next :: rest) = blocks children (next :: rest) := by
  simp [blocks, found]

theorem find?_eq_none_of_ne_node (noNode : ∀ children, entries.lookup name ≠ some (.node children)) :
    find? entries (name :: next :: rest) = none := by
  rw [find?]
  · split
    · next children found => exact absurd found (noNode children)
    · rfl
  · simp

end Below

/-- What a path leads to in merged entries. -/
theorem find?_merge (ordered : incoming.IsOrdered) (entries : Entries) (names : List String) :
    find? (merge entries incoming) names =
      match find? incoming names with
      | some entry => some (overlay (find? entries names) entry)
      | none => if blocks incoming names then none else find? entries names := by
  induction names generalizing entries incoming with
  | nil => rfl
  | cons name rest inductionHypothesis =>
      have merged := lookup_merge ordered.1.nodup_keys entries name
      cases rest with
      | nil =>
          rw [find?, find?, merged]
          cases incoming.lookup name <;> simp [blocks, find?]
      | cons next rest =>
          cases found : incoming.lookup name with
          | none => simp [find?, blocks, merged, found]
          | some entry =>
              rw [found, Option.map_some, Option.some_or] at merged
              cases entry with
              | text content => simp [find?, blocks, merged, found, overlay]
              | plural forms => simp [find?, blocks, merged, found, overlay]
              | node children =>
                  rw [find?_below found, blocks_below found]
                  rcases overlay_node_cases (entries.lookup name) children with
                    ⟨old, isNode, both⟩ | ⟨noNode, replaced⟩
                  · rw [both] at merged
                    rw [find?_below merged, find?_below isNode]
                    exact inductionHypothesis (isOrdered_of_lookup ordered found) old
                  · -- There is nothing below the existing entry, so that the new node is all.
                    rw [replaced] at merged
                    rw [find?_below merged, find?_eq_none_of_ne_node noNode]
                    cases find? children (next :: rest) <;> simp

theorem blocks_keyNames_iff : blocks entries (keyNames key) = true ↔ entries.IsBlocked key := by
  rw [blocks_iff]
  constructor
  · rintro ⟨above, below, content, parts, nonempty, leads⟩
    have started : above ≠ [] := by
      rintro rfl
      exact not_leadsTo_nil leads
    have dotless : ∀ name ∈ above, '.' ∉ name.toList := by
      intro name member
      apply not_mem_of_mem_keyNames
      rw [parts]
      exact List.mem_append_left below member
    refine ⟨".".intercalate above, ".".intercalate below, content, ?_, ?_⟩
    · rw [← String.intercalate_append_of_ne_nil started nonempty, ← parts, intercalate_keyNames]
    · rw [lookup?, keyNames_intercalate dotless started]
      exact leads
  · rintro ⟨above, below, content, rfl, leads⟩
    exact ⟨keyNames above, keyNames below, content, keyNames_append above below,
      keyNames_ne_nil below, leads⟩

theorem lookup?_merge_eq (ordered : incoming.IsOrdered) (entries : Entries) (key : String) :
    lookup? (merge entries incoming) key =
      match incoming.lookup? key with
      | some entry => some (overlay (entries.lookup? key) entry)
      | none => if blocks incoming (keyNames key) then none else entries.lookup? key :=
  find?_merge ordered entries (keyNames key)

/--
Merging is an overlay. A text or plural forms that the incoming entries have for a key take the place of
what was there, and so does a node, except that it is merged into a node. Below a text or plural forms
of the incoming entries nothing is found any more; all other keys lead to what they led to before.
-/
theorem lookup?_merge (ordered : incoming.IsOrdered) (entries : Entries) (key : String) :
    (∀ entry content, incoming.lookup? key = some entry → entry.content? = some content →
      lookup? (merge entries incoming) key = some entry) ∧
    (∀ children, incoming.lookup? key = some (.node children) →
      (∀ existing, entries.lookup? key = some (.node existing) →
        lookup? (merge entries incoming) key = some (.node (merge existing children))) ∧
      ((∀ existing, entries.lookup? key ≠ some (.node existing)) →
        lookup? (merge entries incoming) key = some (.node children))) ∧
    (incoming.lookup? key = none →
      (incoming.IsBlocked key → lookup? (merge entries incoming) key = none) ∧
      (¬incoming.IsBlocked key →
        lookup? (merge entries incoming) key = entries.lookup? key)) := by
  rw [lookup?_merge_eq ordered, ← blocks_keyNames_iff]
  refine ⟨?_, ?_, ?_⟩
  · intro entry content found isContent
    simp [found, overlay_of_content? isContent]
  · intro children found
    rw [found]
    constructor
    · intro existing present
      simp [present, overlay]
    · intro noNode
      rcases overlay_node_cases (entries.lookup? key) children with
        ⟨existing, isNode, -⟩ | ⟨-, replaced⟩
      · exact absurd isNode (noNode existing)
      · simp [replaced]
  · intro absent
    rw [absent]
    constructor
    · intro blocked
      simp [blocked]
    · intro unblocked
      simp [unblocked]

/-- A text takes the place of a node, and of two nodes that are merged the names are kept. -/
theorem lookup?_merge_menu :
    let entries : Entries :=
      [("menu", .node [("back", .text "Back"), ("home", .text "Home")]),
        ("title", .node [("short", .text "Old")])]
    let incoming : Entries := [("menu", .node [("home", .text "Start")]), ("title", .text "New")]
    let merged := merge entries incoming
    incoming.IsOrdered ∧ lookup? merged "menu.home" = some (.text "Start") ∧
      lookup? merged "menu" =
        some (.node (merge [("back", .text "Back"), ("home", .text "Home")]
          [("home", .text "Start")])) ∧
      lookup? merged "title.short" = none ∧ lookup? merged "menu.back" = some (.text "Back") := by
  intro entries incoming merged
  have ordered : incoming.IsOrdered := by decide
  refine ⟨ordered, ?_, ?_, ?_, ?_⟩
  · exact (lookup?_merge ordered entries "menu.home").1 _ (.text "Start") rfl rfl
  · exact ((lookup?_merge ordered entries "menu").2.1 _ rfl).1 _ rfl
  · refine ((lookup?_merge ordered entries "title.short").2.2 rfl).1 ?_
    exact ⟨"title", "short", .text "New", rfl, rfl⟩
  · refine ((lookup?_merge ordered entries "menu.back").2.2 rfl).2 ?_
    rw [← blocks_keyNames_iff]
    decide

end Entries

end LocalizedText
