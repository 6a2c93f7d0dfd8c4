import LocalizedText.Message.Clause

/-!
# The grammar of messages

What it means that a text is a message written out. Text runs stand for themselves, a number sign
for the number of the branch around it, and a clause for an argument, a number or branches. Blanks
may stand between the words of a clause, and the branches of a clause come in any order, with one
for all other cases among them.

A written message is within branches or not, and within the branches of a count or not, which says
what its text runs may hold. Its depth is the number of clauses with branches around it.
-/

namespace LocalizedText

namespace Message

/-- Blanks between the words of a clause. -/
def AreBlanks (blanks : List Char) : Prop :=
  ∀ character ∈ blanks, Text.isAsciiBlank character = true

/-- A word without blanks and without the stops. -/
def IsWord (stops : List Char) (word : String) : Prop :=
  word ≠ "" ∧ ∀ character ∈ word.toList, isWordChar stops character = true

/-- A text run opens no clause, closes no branch around it and has no number sign within a count. -/
def IsRun (inBranch inPlural : Bool) (content : String) : Prop :=
  content ≠ "" ∧ ∀ character ∈ content.toList,
    character ≠ '\x7b' ∧ ¬(character = '\x7d' ∧ inBranch = true) ∧
      ¬(character = '#' ∧ inPlural = true)

instance (blanks : List Char) : Decidable (AreBlanks blanks) :=
  decidable_of_iff (blanks.all Text.isAsciiBlank = true) (by simp [AreBlanks])

instance (stops : List Char) (word : String) : Decidable (IsWord stops word) :=
  decidable_of_iff (word ≠ "" ∧ word.toList.all (isWordChar stops) = true) (by simp [IsWord])

instance (inBranch inPlural : Bool) (content : String) :
    Decidable (IsRun inBranch inPlural content) :=
  decidable_of_iff (content ≠ "" ∧ content.toList.all (fun character =>
      character ≠ '\x7b' ∧ ¬(character = '\x7d' ∧ inBranch = true) ∧
        ¬(character = '#' ∧ inPlural = true)) = true)
    (by simp only [IsRun, List.all_eq_true, decide_eq_true_eq])

/-- The first part of the message is text. -/
def startsWithText (message : Message) : Bool :=
  message.head?.any isText

/-- The words of a clause up to its keyword, after the opening brace. -/
def WrittenHead (name keyword : String) (text : List Char) : Prop :=
  ∃ before after beforeKeyword afterKeyword,
    AreBlanks before ∧ AreBlanks after ∧ AreBlanks beforeKeyword ∧ AreBlanks afterKeyword ∧
      IsWord nameStops name ∧
      text = before ++ (name.toList ++ (after ++
        ',' :: (beforeKeyword ++ (keyword.toList ++ afterKeyword))))

/-- The word for a number style. -/
def styleWord : MessageNumberStyle → String
  | .standard => ""
  | .integer => "integer"
  | .percent => "percent"
  | .compact => "compact"
  | .currency code => "currency/" ++ code

/-- The words of a number clause between its keyword and its closing brace. -/
inductive WrittenStyle : MessageNumberStyle → List Char → Prop where
  | standard : WrittenStyle .standard []
  | named {style : MessageNumberStyle} {before after : List Char} (named : style ≠ .standard)
      (code : ∀ code, style = .currency code → IsWord braces code) (blanks : AreBlanks before)
      (blanksAfter : AreBlanks after) :
      WrittenStyle style (',' :: (before ++ ((styleWord style).toList ++ after)))

/-- What selects a branch of a count. -/
inductive CountSelector where
  | exact (value : Int)
  | category (value : PluralCategory)
deriving DecidableEq

/-- The word for a selector. -/
def CountSelector.word : CountSelector → String
  | exact value => "=" ++ toString value
  | category value => value.name

/-- The branches of a count by their words, given by their selectors. -/
def wordedBranches (branches : List (CountSelector × Message)) : List (String × Message) :=
  branches.map fun (selector, body) => (selector.word, body)

/-- The keyword for branches of a count. -/
def countKeyword (ordinal : Bool) : String :=
  if ordinal then "selectordinal" else "plural"

/-- Branches by exact integers of 64 bits and by categories, each once, in ascending order. -/
structure AreCountBranches (exact : List (Int × Message))
    (categories : List (PluralCategory × Message)) : Prop where
  exactSorted : Keyed.IsSorted exact
  exactBounded : ∀ branch ∈ exact, -(2 ^ 63) ≤ branch.1 ∧ branch.1 < 2 ^ 63
  categoriesSorted : Keyed.IsSorted categories
  noOther : ∀ branch ∈ categories, branch.1 ≠ .other

/-- The branches of a count with a selector of their own. -/
def ownBranches (exact : List (Int × Message)) (categories : List (PluralCategory × Message)) :
    List (CountSelector × Message) :=
  exact.map (fun branch => (.exact branch.1, branch.2)) ++
    categories.map fun branch => (.category branch.1, branch.2)

/-- All branches of a count with their selectors. -/
def countBranches (exact : List (Int × Message)) (categories : List (PluralCategory × Message))
    (other : Message) : List (CountSelector × Message) :=
  ownBranches exact categories ++ [(.category .other, other)]

/-- Branches by words, each once, in ascending order. -/
structure AreCases (cases : List (String × Message)) : Prop where
  sorted : Keyed.IsSorted cases
  words : ∀ branch ∈ cases, IsWord braces branch.1
  noOther : ∀ branch ∈ cases, branch.1 ≠ "other"

mutual

/-- A text is a message written out. -/
inductive Written : (inBranch inPlural : Bool) → (depth : Nat) → Message → List Char → Prop where
  | nil {inBranch inPlural : Bool} {depth : Nat} : Written inBranch inPlural depth [] []
  | text {inBranch inPlural : Bool} {depth : Nat} {content : String} {message : Message}
      {text : List Char} (run : IsRun inBranch inPlural content)
      (apart : startsWithText message = false)
      (following : Written inBranch inPlural depth message text) :
      Written inBranch inPlural depth (.text content :: message) (content.toList ++ text)
  | pound {inBranch : Bool} {depth : Nat} {message : Message} {text : List Char}
      (following : Written inBranch true depth message text) :
      Written inBranch true depth (.pound :: message) ('#' :: text)
  | clause {inBranch inPlural : Bool} {depth : Nat} {node : MessageNode} {message : Message}
      {clause text : List Char} (written : WrittenClause inPlural depth node clause)
      (following : Written inBranch inPlural depth message text) :
      Written inBranch inPlural depth (node :: message) ('\x7b' :: (clause ++ text))

/-- A text is a clause written out after its opening brace. -/
inductive WrittenClause : (inPlural : Bool) → (depth : Nat) → MessageNode → List Char → Prop where
  | argument {inPlural : Bool} {depth : Nat} {name : String} {before after : List Char}
      (word : IsWord nameStops name) (blanks : AreBlanks before) (blanksAfter : AreBlanks after) :
      WrittenClause inPlural depth
        (.argument name
          (String.ofList ('\x7b' :: (before ++ (name.toList ++ (after ++ ['\x7d']))))))
        (before ++ (name.toList ++ (after ++ ['\x7d'])))
  | number {inPlural : Bool} {depth : Nat} {name : String} {style : MessageNumberStyle}
      {head styleText : List Char} (opening : WrittenHead name "number" head)
      (writtenStyle : WrittenStyle style styleText) :
      WrittenClause inPlural depth
        (.number name style (String.ofList ('\x7b' :: (head ++ (styleText ++ ['\x7d'])))))
        (head ++ (styleText ++ ['\x7d']))
  | plural {inPlural : Bool} {depth : Nat} {name : String} {ordinal : Bool}
      {exact : List (Int × Message)} {categories : List (PluralCategory × Message)}
      {other : Message} {branches : List (CountSelector × Message)} {head text : List Char}
      (shallow : depth < maxDepth) (opening : WrittenHead name (countKeyword ordinal) head)
      (sorted : AreCountBranches exact categories)
      (all : branches.Perm (countBranches exact categories other))
      (written : WrittenBranches true (depth + 1) (wordedBranches branches) text) :
      WrittenClause inPlural depth (.plural name ordinal exact categories other)
        (head ++ ',' :: (text ++ ['\x7d']))
  | select {inPlural : Bool} {depth : Nat} {name : String}
      {cases branches : List (String × Message)} {other : Message} {head text : List Char}
      (shallow : depth < maxDepth)
      (opening : WrittenHead name "select" head) (sorted : AreCases cases)
      (all : branches.Perm (cases ++ [("other", other)]))
      (written : WrittenBranches inPlural (depth + 1) branches text) :
      WrittenClause inPlural depth (.select name cases other)
        (head ++ ',' :: (text ++ ['\x7d']))

/-- A text is the branches of a clause written out up to its closing brace. -/
inductive WrittenBranches :
    (inPlural : Bool) → (depth : Nat) → List (String × Message) → List Char → Prop where
  | nil {inPlural : Bool} {depth : Nat} {blanks : List Char} (areBlanks : AreBlanks blanks) :
      WrittenBranches inPlural depth [] blanks
  | cons {inPlural : Bool} {depth : Nat} {selector : String} {body : Message}
      {rest : List (String × Message)} {before after text restText : List Char}
      (blanks : AreBlanks before) (blanksAfter : AreBlanks after)
      (written : Written true inPlural depth body text)
      (following : WrittenBranches inPlural depth rest restText) :
      WrittenBranches inPlural depth ((selector, body) :: rest)
        (before ++ (selector.toList ++ (after ++ '\x7b' :: (text ++ '\x7d' :: restText))))

end

end Message

end LocalizedText
