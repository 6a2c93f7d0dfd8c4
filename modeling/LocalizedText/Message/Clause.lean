import LocalizedText.Keyed
import LocalizedText.Message.Basic
import LocalizedText.Number.Power
import LocalizedText.Text.Blank

/-!
# The words of message clauses

A clause opens with a brace and an argument's name. Alone it is the argument; after a comma comes a
keyword, which decides what else the clause holds. Blanks may stand between the words. Here the
words are read up to the point where branches begin; the branches themselves hold messages again.
-/

namespace LocalizedText

/-- Why a clause is malformed. -/
inductive MessageFault where
  | unclosed
  | badName
  | unknownKeyword
  | unknownStyle
  | badSelector
  | missingOther
  | tooDeep
deriving DecidableEq

def MessageFault.description : MessageFault → String
  | unclosed => "unclosed clause"
  | badName => "missing or invalid argument name"
  | unknownKeyword => "unknown clause keyword"
  | unknownStyle => "unknown number style"
  | badSelector => "invalid branch selector"
  | missingOther => "missing `other` branch"
  | tooDeep => "clauses nested too deeply"

/-- What selects the branches of a clause. -/
inductive BranchKind where
  | plural
  | ordinal
  | select
deriving DecidableEq

/-- The opening words of a clause. -/
inductive ClauseHead where
  /-- The whole clause: an argument. -/
  | argument (name : String)
  /-- The whole clause: a formatted number. -/
  | number (name : String) (style : MessageNumberStyle)
  /-- A clause whose branches follow. -/
  | branches (name : String) (kind : BranchKind)
deriving DecidableEq

/-- What comes next among the branches of a clause. -/
inductive BranchHead where
  /-- The brace that closes the clause. -/
  | close
  /-- A selector and the brace that opens its message. -/
  | branch (selector : String)
deriving DecidableEq

namespace Message

/-- The deepest nesting of branches. -/
def maxDepth : Nat := 32

/-- A character that is neither blank nor one of the stops. -/
def isWordChar (stops : List Char) (character : Char) : Bool :=
  !Text.isAsciiBlank character && !stops.contains character

/-- The word at the start of a text. -/
def word (stops input : List Char) : List Char :=
  input.takeWhile (isWordChar stops)

/-- What follows the word at the start of a text. -/
def afterWord (stops input : List Char) : List Char :=
  input.dropWhile (isWordChar stops)

/-- The characters that end an argument's name. -/
def nameStops : List Char := ['\x7b', '\x7d', ',', '#']

/-- The characters that end a keyword. -/
def keywordStops : List Char := ['\x7b', '\x7d', ',']

/-- The characters that end a number style or a selector. -/
def braces : List Char := ['\x7b', '\x7d']

/-- The number style that a word names. -/
def numberStyle? (word : List Char) : Option MessageNumberStyle :=
  if word = "integer".toList then some .integer
  else if word = "percent".toList then some .percent
  else if word = "compact".toList then some .compact
  else
    let introduction := "currency/".toList
    if introduction.isPrefixOf word && introduction.length < word.length then
      some (.currency (String.ofList (word.drop introduction.length)))
    else none

/-- The kind of branches that a keyword announces. -/
def branchKind? (keyword : List Char) : Option BranchKind :=
  if keyword = "plural".toList then some .plural
  else if keyword = "selectordinal".toList then some .ordinal
  else if keyword = "select".toList then some .select
  else none

/-- The end of a clause that consists of its head. -/
def closeHead (head : ClauseHead) : List Char → Except MessageFault (ClauseHead × List Char)
  | '\x7d' :: rest => .ok (head, rest)
  | _ => .error .unclosed

/-- The rest of a number clause after its keyword. -/
def numberHead (name : String) : List Char → Except MessageFault (ClauseHead × List Char)
  | ',' :: rest =>
      let input := Text.skipBlank rest
      match numberStyle? (word braces input) with
      | none => .error .unknownStyle
      | some style =>
          closeHead (.number name style) (Text.skipBlank (afterWord braces input))
  | input => closeHead (.number name .standard) input

/-- The rest of a clause after its name and a comma. -/
def keywordHead (name : String) (input : List Char) :
    Except MessageFault (ClauseHead × List Char) :=
  let input := Text.skipBlank input
  let keyword := word keywordStops input
  let rest := Text.skipBlank (afterWord keywordStops input)
  if keyword = "number".toList then numberHead name rest
  else
    match branchKind? keyword, rest with
    | some kind, ',' :: rest => .ok (.branches name kind, rest)
    | _, _ => .error .unknownKeyword

/-- The head of a clause, whose opening brace has been read, and what follows it. -/
def clauseHead (input : List Char) : Except MessageFault (ClauseHead × List Char) :=
  let input := Text.skipBlank input
  let name := word nameStops input
  if name.isEmpty then .error .badName
  else
    match Text.skipBlank (afterWord nameStops input) with
    | '\x7d' :: rest => .ok (.argument (String.ofList name), rest)
    | ',' :: rest => keywordHead (String.ofList name) rest
    | _ => .error .badName

/-- A selector that branches of the kind may have; the number of an exact one is read later. -/
def isSelector (kind : BranchKind) (selector : List Char) : Bool :=
  match kind with
  | .select => true
  | _ => selector.head? == some '=' || PluralCategory.isKeyword (String.ofList selector)

/-- What comes next among the branches of a clause, and what follows it. -/
def branchHead (kind : BranchKind) (input : List Char) :
    Except MessageFault (BranchHead × List Char) :=
  match Text.skipBlank input with
  | [] => .error .unclosed
  | '\x7d' :: rest => .ok (.close, rest)
  | input =>
      let selector := word braces input
      if selector.isEmpty || !isSelector kind selector then .error .badSelector
      else
        match Text.skipBlank (afterWord braces input) with
        | '\x7b' :: rest => .ok (.branch (String.ofList selector), rest)
        | _ => .error .badSelector

/-- The integer of 64 bits that a text denotes, with or without a sign. -/
def readInteger? (text : List Char) : Option Int :=
  let (negative, digits) :=
    match text with
    | '-' :: digits => (true, digits)
    | '+' :: digits => (false, digits)
    | digits => (false, digits)
  if digits.isEmpty || !digits.all Char.isDigit then none
  else
    let value : Int :=
      digits.foldl (fun value digit => 10 * value + (digit.toNat - '0'.toNat)) 0
    let value := if negative then -value else value
    if -(2 ^ 63) ≤ value ∧ value < 2 ^ 63 then some value else none

/-- Branches of a count, added to the ones that are already sorted by what selects them. -/
def sortInto (exact : List (Int × Message)) (categories : List (PluralCategory × Message)) :
    List (String × Message) → Option (List (Int × Message) × List (PluralCategory × Message))
  | [] => some (exact, categories)
  | (selector, body) :: rest =>
      match selector.toList with
      | '=' :: digits =>
          match readInteger? digits with
          | some value => sortInto (Keyed.insert value body exact) categories rest
          | none => none
      | _ =>
          match PluralCategory.ofName? selector with
          | some category => sortInto exact (Keyed.insert category body categories) rest
          | none => none

/-- The clause of a head with branches, given in the order of the source. -/
def branchesNode (name : String) (kind : BranchKind) (branches : List (String × Message))
    (other : Message) : Except MessageFault MessageNode :=
  match kind with
  | .select => .ok (.select name (Keyed.ofList branches) other)
  | _ =>
      match sortInto [] [] branches with
      | some (exact, categories) =>
          .ok (.plural name (kind == .ordinal) exact categories other)
      | none => .error .badSelector

theorem length_afterWord_le (stops input : List Char) :
    (afterWord stops input).length ≤ input.length :=
  (List.dropWhile_suffix _).length_le

theorem length_of_closeHead {head result : ClauseHead} {input rest : List Char}
    (found : closeHead head input = .ok (result, rest)) : rest.length < input.length := by
  unfold closeHead at found
  split at found
  · cases found
    simp
  · cases found

theorem length_of_numberHead {name : String} {result : ClauseHead} {input rest : List Char}
    (found : numberHead name input = .ok (result, rest)) : rest.length < input.length := by
  unfold numberHead at found
  split at found
  · next tail =>
    simp only at found
    split at found
    · cases found
    · have closed := length_of_closeHead found
      have skipped := Text.length_skipBlank_le (afterWord braces (Text.skipBlank tail))
      have worded := length_afterWord_le braces (Text.skipBlank tail)
      have started := Text.length_skipBlank_le tail
      simp only [List.length_cons]
      omega
  · exact length_of_closeHead found

theorem length_of_keywordHead {name : String} {result : ClauseHead} {input rest : List Char}
    (found : keywordHead name input = .ok (result, rest)) : rest.length < input.length := by
  have skipped := Text.length_skipBlank_le (afterWord keywordStops (Text.skipBlank input))
  have worded := length_afterWord_le keywordStops (Text.skipBlank input)
  have started := Text.length_skipBlank_le input
  unfold keywordHead at found
  simp only at found
  split at found
  · have numbered := length_of_numberHead found
    omega
  · split at found
    · next follows =>
      cases found
      rw [follows] at skipped
      simp only [List.length_cons] at skipped
      omega
    · cases found

/-- Reading the head of a clause takes at least one character. -/
theorem length_of_clauseHead {head : ClauseHead} {input rest : List Char}
    (found : clauseHead input = .ok (head, rest)) : rest.length < input.length := by
  have skipped := Text.length_skipBlank_le (afterWord nameStops (Text.skipBlank input))
  have worded := length_afterWord_le nameStops (Text.skipBlank input)
  have started := Text.length_skipBlank_le input
  unfold clauseHead at found
  simp only at found
  split at found
  · cases found
  · split at found
    · next follows =>
      cases found
      rw [follows] at skipped
      simp only [List.length_cons] at skipped
      omega
    · next follows =>
      have keyword := length_of_keywordHead found
      rw [follows] at skipped
      simp only [List.length_cons] at skipped
      omega
    · cases found

/-- Reading what comes next among branches takes at least one character. -/
theorem length_of_branchHead {kind : BranchKind} {head : BranchHead} {input rest : List Char}
    (found : branchHead kind input = .ok (head, rest)) : rest.length < input.length := by
  have started := Text.length_skipBlank_le input
  unfold branchHead at found
  split at found
  · cases found
  · next follows =>
    cases found
    rw [follows] at started
    simp only [List.length_cons] at started
    omega
  · simp only at found
    split at found
    · cases found
    · split at found
      · next follows =>
        cases found
        have skipped := Text.length_skipBlank_le (afterWord braces (Text.skipBlank input))
        have worded := length_afterWord_le braces (Text.skipBlank input)
        rw [follows] at skipped
        simp only [List.length_cons] at skipped
        omega
      · cases found

end Message

end LocalizedText
