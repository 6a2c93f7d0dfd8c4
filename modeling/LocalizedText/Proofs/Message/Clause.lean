import LocalizedText.Proofs.Keyed
import LocalizedText.Proofs.Message.Grammar
import LocalizedText.Proofs.Number.IntegerText
import LocalizedText.Proofs.Text.Span
import Mathlib.Data.String.Basic

/-!
# The words of written clauses

The words of a clause are read as they were written, whatever blanks stand between them. A branch is
selected by the word for it, and the branches of a clause come out sorted, whatever their order.
-/

namespace LocalizedText

namespace Message

section Words

variable {stops blanks rest : List Char} {word : String}

theorem skipBlank_append (areBlanks : AreBlanks blanks)
    (start : Text.Stops Text.isAsciiBlank rest) : Text.skipBlank (blanks ++ rest) = rest :=
  Text.dropWhile_of_stops areBlanks start

theorem skipBlank_of_stops (start : Text.Stops Text.isAsciiBlank rest) :
    Text.skipBlank rest = rest := by
  have none : AreBlanks [] := by simp [AreBlanks]
  exact skipBlank_append none start

theorem word_append (isWord : IsWord stops word) (ends : Text.Stops (isWordChar stops) rest) :
    Message.word stops (word.toList ++ rest) = word.toList :=
  Text.takeWhile_of_stops isWord.2 ends

theorem afterWord_append (isWord : IsWord stops word)
    (ends : Text.Stops (isWordChar stops) rest) : afterWord stops (word.toList ++ rest) = rest :=
  Text.dropWhile_of_stops isWord.2 ends

theorem IsWord.start (isWord : IsWord stops word) :
    Text.Stops Text.isAsciiBlank (word.toList ++ rest) := by
  have nonempty : word.toList ≠ [] := by simpa using isWord.1
  obtain ⟨first, others, characters⟩ := List.exists_cons_of_ne_nil nonempty
  have wordChar := isWord.2 first (by simp [characters])
  rw [characters]
  apply Text.stops_cons
  simp only [isWordChar, Bool.and_eq_true, Bool.not_eq_true'] at wordChar
  exact wordChar.1

theorem IsWord.start_ne (isWord : IsWord stops word) {stop : Char} (isStop : stop ∈ stops)
    {others : List Char} : word.toList ++ rest ≠ stop :: others := by
  have nonempty : word.toList ≠ [] := by simpa using isWord.1
  obtain ⟨first, tail, characters⟩ := List.exists_cons_of_ne_nil nonempty
  have wordChar := isWord.2 first (by simp [characters])
  rw [characters]
  intro same
  rw [(List.cons.inj same).1] at wordChar
  simp [isWordChar, isStop] at wordChar

theorem AreBlanks.ends (areBlanks : AreBlanks blanks) (ends : Text.Stops (isWordChar stops) rest) :
    Text.Stops (isWordChar stops) (blanks ++ rest) := by
  cases blanks with
  | nil => exact ends
  | cons blank blanks =>
      apply Text.stops_cons
      simp [isWordChar, areBlanks blank]

theorem ends_stop {stop : Char} (isStop : stop ∈ stops) :
    Text.Stops (isWordChar stops) (stop :: rest) := by
  apply Text.stops_cons
  simp [isWordChar, isStop]

end Words

section Heads

variable {name : String} {rest : List Char}

theorem clauseHead_argument {before after : List Char} (isWord : IsWord nameStops name)
    (blanks : AreBlanks before) (blanksAfter : AreBlanks after) :
    clauseHead (before ++ (name.toList ++ (after ++ '\x7d' :: rest))) =
      .ok (.argument name, rest) := by
  have ends : Text.Stops (isWordChar nameStops) (after ++ '\x7d' :: rest) :=
    blanksAfter.ends (ends_stop (by decide))
  have close : Text.Stops Text.isAsciiBlank ('\x7d' :: rest) := Text.stops_cons (by decide)
  have nonempty : name.toList.isEmpty = false := by simpa using isWord.1
  unfold clauseHead
  simp only [skipBlank_append blanks isWord.start, word_append isWord ends, nonempty,
    afterWord_append isWord ends, skipBlank_append blanksAfter close, String.ofList_toList]
  rfl

/-- The words of a clause are read up to its keyword, and the blanks around it do not count. -/
theorem clauseHead_keyword {keyword : String} {head : List Char}
    (opening : WrittenHead name keyword head) (isKeyword : IsWord keywordStops keyword)
    (ends : Text.Stops (isWordChar keywordStops) rest)
    (start : Text.Stops Text.isAsciiBlank rest) :
    clauseHead (head ++ rest) = keywordHead name (keyword.toList ++ rest) := by
  rcases opening with ⟨before, after, beforeKeyword, afterKeyword, blanks, blanksAfter,
    blanksKeyword, blanksAfterKeyword, isWord, rfl⟩
  have nameEnds : Text.Stops (isWordChar nameStops)
      (after ++ ',' :: (beforeKeyword ++ (keyword.toList ++ (afterKeyword ++ rest)))) :=
    blanksAfter.ends (ends_stop (by decide))
  have comma : Text.Stops Text.isAsciiBlank
      (',' :: (beforeKeyword ++ (keyword.toList ++ (afterKeyword ++ rest)))) :=
    Text.stops_cons (by decide)
  have keywordEnds := blanksAfterKeyword.ends ends
  have nonempty : name.toList.isEmpty = false := by simpa using isWord.1
  simp only [List.append_assoc, List.cons_append]
  unfold clauseHead
  simp only [skipBlank_append blanks isWord.start, word_append isWord nameEnds, nonempty,
    afterWord_append isWord nameEnds, skipBlank_append blanksAfter comma, String.ofList_toList]
  rw [if_neg Bool.false_ne_true]
  simp only [keywordHead, skipBlank_append blanksKeyword isKeyword.start,
    skipBlank_of_stops isKeyword.start, word_append isKeyword keywordEnds,
    word_append isKeyword ends, afterWord_append isKeyword keywordEnds,
    afterWord_append isKeyword ends, skipBlank_append blanksAfterKeyword start,
    skipBlank_of_stops start]

theorem clauseHead_plural {ordinal : Bool} {head : List Char}
    (opening : WrittenHead name (countKeyword ordinal) head) :
    clauseHead (head ++ ',' :: rest) =
      .ok (.branches name (if ordinal then .ordinal else .plural), rest) := by
  have isKeyword : IsWord keywordStops (countKeyword ordinal) := by
    cases ordinal <;> decide
  rw [clauseHead_keyword opening isKeyword (ends_stop (by decide)) (Text.stops_cons (by decide))]
  cases ordinal <;> rfl

theorem clauseHead_select {head : List Char} (opening : WrittenHead name "select" head) :
    clauseHead (head ++ ',' :: rest) = .ok (.branches name .select, rest) := by
  have isKeyword : IsWord keywordStops "select" := by decide
  rw [clauseHead_keyword opening isKeyword (ends_stop (by decide)) (Text.stops_cons (by decide))]
  rfl

theorem keywordHead_number (ends : Text.Stops (isWordChar keywordStops) rest)
    (start : Text.Stops Text.isAsciiBlank rest) :
    keywordHead name ("number".toList ++ rest) = numberHead name rest := by
  have isKeyword : IsWord keywordStops "number" := by decide
  unfold keywordHead
  simp only [skipBlank_of_stops isKeyword.start, word_append isKeyword ends,
    afterWord_append isKeyword ends, skipBlank_of_stops start, if_true]

/-- A number style is named by its word, which holds no brace. -/
theorem numberStyle?_styleWord {style : MessageNumberStyle} (named : style ≠ .standard)
    (code : ∀ code, style = .currency code → IsWord braces code) :
    IsWord braces (styleWord style) ∧ numberStyle? (styleWord style).toList = some style := by
  cases style with
  | standard => exact absurd rfl named
  | integer => exact ⟨by decide, rfl⟩
  | percent => exact ⟨by decide, rfl⟩
  | compact => exact ⟨by decide, rfl⟩
  | currency currency =>
      have isWord := code currency rfl
      have apart (known : String) (different : known.toList.take 2 ≠ ['c', 'u']) :
          (styleWord (.currency currency)).toList ≠ known.toList := by
        intro same
        rw [← same] at different
        exact different (by simp [styleWord])
      constructor
      · refine ⟨by simp [styleWord], ?_⟩
        intro character member
        simp only [styleWord, String.toList_append, List.mem_append] at member
        rcases member with introduction | member
        · have all : "currency/".toList.all (isWordChar braces) = true := by decide
          exact List.all_eq_true.mp all character introduction
        · exact isWord.2 character member
      · unfold numberStyle?
        rw [if_neg (apart "integer" (by decide)), if_neg (apart "percent" (by decide)),
          if_neg (apart "compact" (by decide))]
        have longer : 0 < currency.toList.length := by
          have nonempty : currency.toList ≠ [] := by simpa using isWord.1
          exact List.length_pos_iff.mpr nonempty
        simp [styleWord, longer]

theorem clauseHead_number {style : MessageNumberStyle} {head styleText : List Char}
    (opening : WrittenHead name "number" head) (written : WrittenStyle style styleText) :
    clauseHead (head ++ (styleText ++ '\x7d' :: rest)) = .ok (.number name style, rest) := by
  have isKeyword : IsWord keywordStops "number" := by decide
  cases written with
  | standard =>
      rw [List.nil_append, clauseHead_keyword opening isKeyword (ends_stop (by decide))
        (Text.stops_cons (by decide))]
      rfl
  | @named _ before after named code blanks blanksAfter =>
      rcases numberStyle?_styleWord named code with ⟨isWord, known⟩
      have styleEnds : Text.Stops (isWordChar braces) (after ++ '\x7d' :: rest) :=
        blanksAfter.ends (ends_stop (by decide))
      have close : Text.Stops Text.isAsciiBlank ('\x7d' :: rest) := Text.stops_cons (by decide)
      rw [List.cons_append, clauseHead_keyword opening isKeyword (ends_stop (by decide))
        (Text.stops_cons (by decide)), keywordHead_number (ends_stop (by decide))
        (Text.stops_cons (by decide))]
      simp only [numberHead, List.append_assoc, skipBlank_append blanks isWord.start,
        word_append isWord styleEnds, known, afterWord_append isWord styleEnds,
        skipBlank_append blanksAfter close]
      rfl

theorem branchHead_close {kind : BranchKind} {blanks : List Char} (areBlanks : AreBlanks blanks) :
    branchHead kind (blanks ++ '\x7d' :: rest) = .ok (.close, rest) := by
  unfold branchHead
  rw [skipBlank_append areBlanks (Text.stops_cons (by decide))]
  rfl

theorem branchHead_branch {kind : BranchKind} {selector : String} {before after : List Char}
    (blanks : AreBlanks before) (blanksAfter : AreBlanks after) (isWord : IsWord braces selector)
    (good : isSelector kind selector.toList = true) :
    branchHead kind (before ++ (selector.toList ++ (after ++ '\x7b' :: rest))) =
      .ok (.branch selector, rest) := by
  have ends : Text.Stops (isWordChar braces) (after ++ '\x7b' :: rest) :=
    blanksAfter.ends (ends_stop (by decide))
  have opens : Text.Stops Text.isAsciiBlank ('\x7b' :: rest) := Text.stops_cons (by decide)
  have nonempty : selector.toList.isEmpty = false := by simpa using isWord.1
  unfold branchHead
  rw [skipBlank_append blanks isWord.start]
  split
  · next empty => simp_all
  · next close =>
      exact absurd close (isWord.start_ne (by decide))
  · simp only [word_append isWord ends, nonempty, good, afterWord_append isWord ends,
      skipBlank_append blanksAfter opens, String.ofList_toList]
    rfl

end Heads

section Selectors

theorem isWordChar_digit {character : Char} (isDigit : character.isDigit = true) :
    isWordChar braces character = true := by
  have apart (special : Char) (notDigit : special.isDigit = false) : character ≠ special := by
    rintro rfl
    rw [notDigit] at isDigit
    cases isDigit
  simp [isWordChar, Text.isAsciiBlank, braces, apart ' ' rfl, apart '\t' rfl, apart '\n' rfl,
    apart '\x0C' rfl, apart '\r' rfl, apart '\x7b' rfl, apart '\x7d' rfl]

/-- The word for a selector holds no brace and is a selector of a count. -/
theorem CountSelector.isWord (selector : CountSelector) : IsWord braces selector.word := by
  cases selector with
  | exact value =>
      refine ⟨by simp [CountSelector.word], ?_⟩
      intro character member
      simp only [CountSelector.word, String.toList_append, List.mem_append] at member
      rcases member with equals | member
      · rw [List.mem_singleton.mp equals]
        decide
      · rcases IntegerText.mem_toString member with digit | rfl
        · exact isWordChar_digit digit
        · decide
  | category value => cases value <;> decide

theorem CountSelector.isSelector {kind : BranchKind} (selector : CountSelector) :
    isSelector kind selector.word.toList = true := by
  cases selector with
  | exact value => cases kind <;> simp [Message.isSelector, CountSelector.word]
  | category value => cases kind <;> cases value <;> decide

/-- Only one selector is for all other cases. -/
theorem CountSelector.word_eq_other {selector : CountSelector} :
    selector.word = "other" ↔ selector = .category .other := by
  cases selector with
  | exact value =>
      constructor
      · intro same
        have starts := congrArg (fun word : String => word.toList.head?) same
        simp [CountSelector.word] at starts
      · intro same
        cases same
  | category value => cases value <;> decide

end Selectors

section Sorting

/-- Branches with a selector of their own in order, and the last one for all other cases. -/
def separate : List (String × Message) → List (String × Message) × Option Message
  | [] => ([], none)
  | (selector, body) :: rest =>
      if selector = "other" then ((separate rest).1, (separate rest).2 <|> some body)
      else ((selector, body) :: (separate rest).1, (separate rest).2)

theorem separate_fst (branches : List (String × Message)) :
    (separate branches).1 = branches.filter (·.1 ≠ "other") := by
  induction branches with
  | nil => rfl
  | cons branch rest inductionHypothesis =>
      rw [separate]
      split
      · next other => simp [other, inductionHypothesis]
      · next own => simp [own, inductionHypothesis]

theorem separate_snd (branches : List (String × Message)) :
    (separate branches).2 = (branches.filter (·.1 = "other")).getLast?.map Prod.snd := by
  induction branches with
  | nil => rfl
  | cons branch rest inductionHypothesis =>
      rw [separate]
      split
      · next other =>
          simp only [inductionHypothesis, List.filter_cons, other, decide_true, if_true]
          cases rest.filter (·.1 = "other") <;> simp [List.getLast?_cons]
      · next own => simp [own, inductionHypothesis]

/-- Leaving out the one element without a property leaves the others. -/
theorem filter_perm_of_perm {α : Type} {property : α → Bool} {elements own : List α} {last : α}
    (all : elements.Perm (own ++ [last])) (ownHave : ∀ element ∈ own, property element = true)
    (lastHasNot : property last = false) : (elements.filter property).Perm own := by
  have remaining := all.filter property
  rw [List.filter_append, List.filter_eq_self.mpr ownHave] at remaining
  simpa [lastHasNot] using remaining

/-- The one branch for all other cases is found wherever it stands. -/
theorem separate_of_perm {branches own : List (String × Message)} {other : Message}
    (noOther : ∀ branch ∈ own, branch.1 ≠ "other")
    (all : branches.Perm (own ++ [("other", other)])) :
    separate branches = (branches.filter (·.1 ≠ "other"), some other) := by
  have single := all.filter (·.1 = "other")
  have none : own.filter (·.1 = "other") = [] := by simpa using noOther
  rw [List.filter_append, none, List.nil_append] at single
  have found : branches.filter (·.1 = "other") = [("other", other)] := by
    simpa using single
  rw [Prod.ext_iff, separate_fst, separate_snd, found]
  exact ⟨rfl, rfl⟩

def exactBranches (branches : List (CountSelector × Message)) : List (Int × Message) :=
  branches.filterMap fun
    | (.exact value, body) => some (value, body)
    | (.category _, _) => none

def categoryBranches (branches : List (CountSelector × Message)) :
    List (PluralCategory × Message) :=
  branches.filterMap fun
    | (.exact _, _) => none
    | (.category value, body) => some (value, body)

/-- Branches of a count are sorted by inserting each where it belongs. -/
theorem sortInto_wordedBranches {branches : List (CountSelector × Message)}
    (bounded : ∀ branch ∈ exactBranches branches, -(2 ^ 63) ≤ branch.1 ∧ branch.1 < 2 ^ 63)
    (exact : List (Int × Message)) (categories : List (PluralCategory × Message)) :
    sortInto exact categories (wordedBranches branches) =
      some ((exactBranches branches).foldl
          (fun sorted branch => Keyed.insert branch.1 branch.2 sorted) exact,
        (categoryBranches branches).foldl
          (fun sorted branch => Keyed.insert branch.1 branch.2 sorted) categories) := by
  induction branches generalizing exact categories with
  | nil => rfl
  | cons branch rest inductionHypothesis =>
      rcases branch with ⟨selector, body⟩
      cases selector with
      | exact value =>
          have here := bounded (value, body) (by simp [exactBranches])
          have others : ∀ branch ∈ exactBranches rest,
              -(2 ^ 63) ≤ branch.1 ∧ branch.1 < 2 ^ 63 := by
            intro branch member
            exact bounded branch (List.mem_cons_of_mem _ member)
          have word : (CountSelector.word (.exact value)).toList =
              '=' :: (toString value).toList := by
            simp [CountSelector.word]
          rw [wordedBranches, List.map_cons, sortInto, ← wordedBranches]
          simp only [word, IntegerText.readInteger?_toString here.1 here.2]
          exact inductionHypothesis others _ _
      | category value =>
          have unsigned (digits : List Char) : value.name.toList ≠ '=' :: digits := by
            cases value <;> simp [PluralCategory.name]
          rw [wordedBranches, List.map_cons, sortInto, ← wordedBranches]
          simp only [CountSelector.word, PluralCategory.ofName?_name]
          exact inductionHypothesis bounded _ _

instance : IsStrictTotalOrder PluralCategory (· < ·) where
  trichotomous left right := by cases left <;> cases right <;> decide
  irrefl _ := Nat.lt_irrefl _
  trans _ _ _ := Nat.lt_trans

theorem exactBranches_ownBranches (exact : List (Int × Message))
    (categories : List (PluralCategory × Message)) :
    exactBranches (ownBranches exact categories) = exact := by
  simp [exactBranches, ownBranches, List.filterMap_append, List.filterMap_map]

theorem categoryBranches_ownBranches (exact : List (Int × Message))
    (categories : List (PluralCategory × Message)) :
    categoryBranches (ownBranches exact categories) = categories := by
  simp [categoryBranches, ownBranches, List.filterMap_append, List.filterMap_map]

theorem AreCountBranches.own_ne_other {exact : List (Int × Message)}
    {categories : List (PluralCategory × Message)} (sorted : AreCountBranches exact categories) :
    ∀ branch ∈ ownBranches exact categories, branch.1 ≠ .category .other := by
  intro branch member
  rcases List.mem_append.mp member with exactMember | categoryMember
  · rcases List.mem_map.mp exactMember with ⟨_, -, rfl⟩
    simp
  · rcases List.mem_map.mp categoryMember with ⟨category, isCategory, rfl⟩
    simpa using sorted.noOther category isCategory

/-- Branches of a count in any order are the clause with its branches in order. -/
theorem branchesNode_count (name : String) (ordinal : Bool) {exact : List (Int × Message)}
    {categories : List (PluralCategory × Message)} {other : Message}
    {branches : List (CountSelector × Message)} (sorted : AreCountBranches exact categories)
    (all : branches.Perm (countBranches exact categories other)) :
    ∃ rest, separate (wordedBranches branches) = (rest, some other) ∧
      branchesNode name (if ordinal then .ordinal else .plural) rest other =
        .ok (.plural name ordinal exact categories other) := by
  -- What stays when the obligatory branch is taken out, in the order in which it was given.
  let rest := branches.filter (·.1 ≠ .category .other)
  have same : rest.Perm (ownBranches exact categories) :=
    filter_perm_of_perm all (by simpa using sorted.own_ne_other) (by simp)
  have ofWords : (wordedBranches branches).filter (·.1 ≠ "other") = wordedBranches rest := by
    simp [wordedBranches, rest, List.filter_map, Function.comp_def, CountSelector.word_eq_other]
  have wordsApart : ∀ branch ∈ wordedBranches (ownBranches exact categories),
      branch.1 ≠ "other" := by
    intro worded member
    rcases List.mem_map.mp member with ⟨branch, isBranch, rfl⟩
    intro word
    exact sorted.own_ne_other branch isBranch (CountSelector.word_eq_other.mp word)
  have worded : (wordedBranches branches).Perm
      (wordedBranches (ownBranches exact categories) ++ [("other", other)]) := by
    refine (all.map _).trans ?_
    rw [countBranches, List.map_append]
    exact List.Perm.refl _
  have exactSame : (exactBranches rest).Perm exact := by
    have branchwise : (exactBranches rest).Perm (exactBranches (ownBranches exact categories)) :=
      same.filterMap _
    rwa [exactBranches_ownBranches] at branchwise
  have categoriesSame : (categoryBranches rest).Perm categories := by
    have branchwise : (categoryBranches rest).Perm
        (categoryBranches (ownBranches exact categories)) :=
      same.filterMap _
    rwa [categoryBranches_ownBranches] at branchwise
  have bounded : ∀ branch ∈ exactBranches rest, -(2 ^ 63) ≤ branch.1 ∧ branch.1 < 2 ^ 63 := by
    intro branch member
    exact sorted.exactBounded branch (exactSame.mem_iff.mp member)
  have inOrder : sortInto [] [] (wordedBranches rest) = some (exact, categories) := by
    rw [sortInto_wordedBranches bounded, ← Keyed.ofList, ← Keyed.ofList,
      Keyed.ofList_of_perm sorted.exactSorted exactSame,
      Keyed.ofList_of_perm sorted.categoriesSorted categoriesSame]
  refine ⟨wordedBranches rest, ?_, ?_⟩
  · rw [separate_of_perm wordsApart worded, ofWords]
  · cases ordinal <;> simp [branchesNode, inOrder]

theorem branchesNode_select (name : String) {cases branches : List (String × Message)}
    {other : Message} (sorted : AreCases cases)
    (all : branches.Perm (cases ++ [("other", other)])) :
    ∃ rest, separate branches = (rest, some other) ∧
      branchesNode name .select rest other = .ok (.select name cases other) := by
  refine ⟨_, separate_of_perm sorted.noOther all, ?_⟩
  have same : (branches.filter (·.1 ≠ "other")).Perm cases :=
    filter_perm_of_perm all (by simpa using sorted.noOther) (by simp)
  rw [branchesNode, Keyed.ofList_of_perm sorted.sorted same]

theorem AreCases.isWord_of_perm {cases branches : List (String × Message)} {other : Message}
    {branch : String × Message} (sorted : AreCases cases)
    (all : branches.Perm (cases ++ [("other", other)])) (member : branch ∈ branches) :
    IsWord braces branch.1 := by
  rcases List.mem_append.mp (all.mem_iff.mp member) with own | isOther
  · exact sorted.words branch own
  · have isWord : IsWord braces "other" := by decide
    rwa [List.mem_singleton.mp isOther]

end Sorting

end Message

end LocalizedText
