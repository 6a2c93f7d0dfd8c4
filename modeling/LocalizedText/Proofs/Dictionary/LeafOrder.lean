import LocalizedText.Proofs.Dictionary.LeafKeys

/-!
# The order of leaf keys

The leaf paths of entries stand in ascending order, compared name by name. Their keys need not stand in
ascending order as texts, because a name may go on with a character that comes before the dot: `a-b`
comes before `a.x`, although `a` comes before `a-b`. On plain paths this is the only way in which
keys can get out of order.

Paths and the names on them are compared in one way: where two of them part, the smaller item decides,
and a front comes before what goes on from it.
-/

namespace LocalizedText

section Lexicographic

variable {α : Type} [LT α]

/-- Of two lists the smaller one is a front of the other, or its item is smaller where they part. -/
theorem exists_parting {left right : List α} (smaller : left < right) :
    (∃ next rest, right = left ++ next :: rest) ∨
      ∃ shared first second leftRest rightRest, left = shared ++ first :: leftRest ∧
        right = shared ++ second :: rightRest ∧ first < second := by
  induction smaller with
  | nil => exact Or.inl ⟨_, _, rfl⟩
  | rel less => exact Or.inr ⟨[], _, _, _, _, rfl, rfl, less⟩
  | @cons item left right _ inductionHypothesis =>
      rcases inductionHypothesis with ⟨next, rest, rfl⟩ | ⟨shared, first, second, _, _, rfl, rfl, less⟩
      · exact Or.inl ⟨next, rest, rfl⟩
      · exact Or.inr ⟨item :: shared, first, second, _, _, rfl, rfl, less⟩

theorem append_lt_append_iff [Std.Irrefl (α := α) (· < ·)] {shared left right : List α} :
    shared ++ left < shared ++ right ↔ left < right := by
  induction shared with
  | nil => rfl
  | cons item shared inductionHypothesis =>
      rw [List.cons_append, List.cons_append, List.cons_lt_cons_self, inductionHypothesis]

/-- In an ascending list the smaller one of two items comes first. -/
theorem pairwise_iff_of_ascending [Std.Asymm (α := α) (· < ·)] {list : List α}
    (ascending : list.Pairwise (· < ·)) {related : α → α → Prop} :
    list.Pairwise related ↔
      ∀ first ∈ list, ∀ second ∈ list, first < second → related first second := by
  constructor
  · intro pairwise
    induction list with
    | nil => simp
    | cons item rest inductionHypothesis =>
        rcases List.pairwise_cons.mp ascending with ⟨least, tail⟩
        rcases List.pairwise_cons.mp pairwise with ⟨relatedToRest, restPairwise⟩
        intro first isFirst second isSecond smaller
        rcases List.mem_cons.mp isFirst with rfl | firstLater
        · rcases List.mem_cons.mp isSecond with rfl | secondLater
          · exact absurd smaller (Std.Asymm.asymm _ _ smaller)
          · exact relatedToRest second secondLater
        · rcases List.mem_cons.mp isSecond with rfl | secondLater
          · exact absurd smaller (Std.Asymm.asymm _ _ (least first firstLater))
          · exact inductionHypothesis tail restPairwise first firstLater second secondLater smaller
  · intro all
    refine ascending.imp_of_mem ?_
    intro first second isFirst isSecond smaller
    exact all first isFirst second isSecond smaller

end Lexicographic

section Keys

variable {names other shared : List String}

/--
Another path overtakes a path when its name goes on, where they part, with a character before the dot
that the path has there.
-/
def IsOvertakenBy (names other : List String) : Prop :=
  ∃ shared name below extension later, names = shared ++ name :: below ∧ below ≠ [] ∧
    other = shared ++ (name ++ extension) :: later ∧ ∃ first ∈ extension.toList.head?, first < '.'

/-- The characters of a key from the end of a name on. -/
def charactersBehind (below : List String) : List Char :=
  below.flatMap fun name => '.' :: name.toList

theorem toList_intercalate_cons (name : String) (below : List String) :
    (".".intercalate (name :: below)).toList = name.toList ++ charactersBehind below := by
  induction below generalizing name with
  | nil => simp [charactersBehind]
  | cons next rest inductionHypothesis =>
      rw [String.intercalate_cons_cons, String.toList_append, inductionHypothesis]
      simp [charactersBehind]

/-- What is written in front of a name depends on the names before it only. -/
theorem exists_front (shared : List String) : ∃ front : List Char, ∀ name below,
    (".".intercalate (shared ++ name :: below)).toList =
      front ++ (name.toList ++ charactersBehind below) := by
  induction shared with
  | nil => exact ⟨[], fun name below => toList_intercalate_cons name below⟩
  | cons first rest inductionHypothesis =>
      rcases inductionHypothesis with ⟨front, written⟩
      refine ⟨first.toList ++ '.' :: front, ?_⟩
      intro name below
      rw [List.cons_append, String.intercalate_cons_of_ne_nil (by simp), String.toList_append,
        written]
      simp

/-- Of two keys that part at a name, the rest from this name on decides. -/
theorem intercalate_lt_iff {name otherName : String} {below later : List String} :
    ".".intercalate (shared ++ otherName :: later) < ".".intercalate (shared ++ name :: below) ↔
      otherName.toList ++ charactersBehind later < name.toList ++ charactersBehind below := by
  rcases exists_front shared with ⟨front, written⟩
  rw [String.lt_iff_toList_lt, written, written, append_lt_append_iff]

theorem IsOvertakenBy.lt (overtaken : IsOvertakenBy names other) : names < other := by
  rcases overtaken with ⟨shared, name, below, extension, later, rfl, -, rfl, first, isFirst, -⟩
  have longer : name < name ++ extension := by
    rw [String.lt_iff_toList_lt, String.toList_append]
    nth_rewrite 1 [← List.append_nil name.toList]
    rw [append_lt_append_iff]
    rcases List.head?_eq_some_iff.mp isFirst with ⟨rest, written⟩
    rw [written]
    exact List.nil_lt_cons _ _
  exact append_lt_append_iff.mpr (List.Lex.rel longer)

/-- The key of a path that is overtaken comes after the key of the other path. -/
theorem IsOvertakenBy.dottedKey_lt (overtaken : IsOvertakenBy names other)
    (plain : IsPlainPath names) (otherPlain : IsPlainPath other) :
    dottedKey other < dottedKey names := by
  rw [dottedKey_of_isPlainPath plain, dottedKey_of_isPlainPath otherPlain]
  rcases overtaken with ⟨shared, name, below, extension, later, rfl, goesOn, rfl, first, isFirst, less⟩
  rcases List.head?_eq_some_iff.mp isFirst with ⟨rest, written⟩
  rcases List.exists_cons_of_ne_nil goesOn with ⟨next, others, rfl⟩
  rw [intercalate_lt_iff, String.toList_append, List.append_assoc, append_lt_append_iff, written]
  exact List.Lex.rel less

/-- A path of which the key comes after that of a larger path is overtaken by it. -/
theorem isOvertakenBy_of_dottedKey_lt (plain : IsPlainPath names) (otherPlain : IsPlainPath other)
    (smaller : names < other) (before : dottedKey other < dottedKey names) :
    IsOvertakenBy names other := by
  rw [dottedKey_of_isPlainPath plain, dottedKey_of_isPlainPath otherPlain] at before
  rcases exists_parting smaller with
    ⟨next, rest, rfl⟩ | ⟨shared, name, otherName, below, later, rfl, rfl, less⟩
  · -- The key of a path starts the keys of all paths that go on from it.
    rcases List.eq_nil_or_concat' names with rfl | ⟨shared, name, rfl⟩
    · exact absurd (String.lt_iff_toList_lt.mp before) (List.not_lt_nil _)
    · rw [List.append_assoc, List.singleton_append, intercalate_lt_iff, append_lt_append_iff]
        at before
      exact absurd before (List.not_lt_nil _)
  · rw [intercalate_lt_iff] at before
    rcases exists_parting (String.lt_iff_toList_lt.mp less) with
      ⟨first, rest, longer⟩ | ⟨front, first, second, _, _, written, otherWritten, character⟩
    · rw [longer, List.append_assoc, append_lt_append_iff, List.cons_append] at before
      have isLonger : otherName = name ++ String.ofList (first :: rest) := by
        apply String.toList_injective
        simp [longer]
      have noDot : first ≠ '.' := by
        rintro rfl
        apply otherPlain.1 otherName (by simp)
        simp [longer]
      cases below with
      | nil => exact absurd before (List.not_lt_nil _)
      | cons next others =>
          rcases List.cons_lt_cons_iff.mp before with earlier | ⟨same, -⟩
          · exact ⟨shared, name, next :: others, String.ofList (first :: rest), later, rfl,
              by simp, by rw [isLonger], first, by simp, earlier⟩
          · exact absurd same noDot
    · rw [written, otherWritten, List.append_assoc, List.append_assoc, append_lt_append_iff] at before
      rcases List.cons_lt_cons_iff.mp before with earlier | ⟨same, -⟩
      · exact absurd character (lt_asymm earlier)
      · exact absurd same character.ne'

end Keys

namespace Entries

variable {entries : Entries}

/-- The leaf paths of an entry stand in ascending order. -/
theorem pairwise_leafPathsOf {entry : Entry} (ordered : entry.IsOrdered) :
    entry.leafPaths.Pairwise (· < ·) := by
  induction entry with
  | text content => simp [Entry.leafPaths]
  | plural forms => simp [Entry.leafPaths]
  | node children below =>
      rw [Entry.isOrdered_node] at ordered
      rw [Entry.leafPaths, leafPaths_eq_flatMap, List.pairwise_flatMap]
      constructor
      · intro pair member
        rw [List.pairwise_map]
        refine (below pair member (areOrdered_iff.mp ordered.2 pair member)).imp ?_
        intro first second smaller
        exact List.Lex.cons smaller
      · refine List.Pairwise.imp ?_ ordered.1
        intro pair other less first isFirst second isSecond
        rcases List.mem_map.mp isFirst with ⟨rest, -, rfl⟩
        rcases List.mem_map.mp isSecond with ⟨later, -, rfl⟩
        exact List.Lex.rel less

/-- The leaf paths of entries stand in ascending order, compared name by name. -/
theorem pairwise_leafPaths (ordered : entries.IsOrdered) :
    (leafPaths entries).Pairwise (· < ·) := by
  have node := pairwise_leafPathsOf (Entry.isOrdered_node.mpr ordered)
  rwa [Entry.leafPaths] at node

/--
Leaf keys are listed in the order of their paths, compared name by name. When all paths are plain, the
keys also stand in ascending order, exactly if no leaf path is overtaken by another one.
-/
theorem leafKeys_in_order_of_paths (ordered : entries.IsOrdered) :
    entries.leafKeys = (leafPaths entries).map dottedKey ∧
    (leafPaths entries).Pairwise (· < ·) ∧
    (∀ names, names ∈ leafPaths entries ↔ ∃ content, entries.LeadsTo names content) ∧
    ((∀ names ∈ leafPaths entries, IsPlainPath names) →
      (entries.leafKeys.Pairwise (· ≤ ·) ↔
        ∀ names ∈ leafPaths entries, ∀ other ∈ leafPaths entries, ¬IsOvertakenBy names other)) := by
  have ascending := pairwise_leafPaths ordered
  refine ⟨leafKeys_eq entries, ascending, fun names => mem_leafPaths_iff ordered, ?_⟩
  intro plain
  rw [leafKeys_eq, List.pairwise_map, pairwise_iff_of_ascending ascending]
  constructor
  · intro inOrder names isPath other isOther overtaken
    have before := overtaken.dottedKey_lt (plain names isPath) (plain other isOther)
    exact absurd before (not_lt.mpr (inOrder names isPath other isOther overtaken.lt))
  · intro noneOvertaken names isPath other isOther smaller
    apply not_lt.mp
    intro before
    exact noneOvertaken names isPath other isOther
      (isOvertakenBy_of_dottedKey_lt (plain names isPath) (plain other isOther) smaller before)

/-- A name that goes on with a hyphen puts the leaf keys out of order. -/
theorem leafKeys_in_order_of_paths_hyphen :
    let entries : Entries := [("a", .node [("x", .text "X")]), ("a-b", .text "AB")]
    entries.IsOrdered ∧ (∀ names ∈ leafPaths entries, IsPlainPath names) ∧
      IsOvertakenBy ["a", "x"] ["a-b"] ∧ ¬entries.leafKeys.Pairwise (· ≤ ·) := by
  intro entries
  have ordered : entries.IsOrdered := by decide
  have paths : leafPaths entries = [["a", "x"], ["a-b"]] := by rfl
  have plain : ∀ names ∈ leafPaths entries, IsPlainPath names := by
    rw [paths]
    simp [IsPlainPath]
  have overtaken : IsOvertakenBy ["a", "x"] ["a-b"] :=
    ⟨[], "a", ["x"], "-b", [], rfl, by simp, by decide, '-', by simp, by decide⟩
  refine ⟨ordered, plain, overtaken, ?_⟩
  rw [(leafKeys_in_order_of_paths ordered).2.2.2 plain, paths]
  intro noneOvertaken
  exact noneOvertaken ["a", "x"] (by simp) ["a-b"] (by simp) overtaken

/-- Leaf keys are not always listed in ascending order. -/
theorem leafKeys_not_ascending :
    let entries : Entries := [("a", .node [("x", .text "X")]), ("a-b", .text "AB")]
    entries.IsOrdered ∧ entries.leafKeys = ["a.x", "a-b"] ∧
      ¬entries.leafKeys.Pairwise (· ≤ ·) := by
  intro entries
  have ordered : entries.IsOrdered := by decide
  have listed : entries.leafKeys = ["a.x", "a-b"] := by
    simp [entries, leafKeys, leafKeysBelow, leafKeysOf, joinPath]
  refine ⟨ordered, listed, ?_⟩
  rw [listed]
  decide

end Entries

end LocalizedText
