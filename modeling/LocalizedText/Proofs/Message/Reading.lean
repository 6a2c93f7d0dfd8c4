import LocalizedText.Message.Reader

/-!
# The equations of reading

Reading a message, a clause and branches call each other, and each returns a proof that it leaves
less than it was given. Here they are seen without that proof and without the kind of a fault, as
functions to a value and the rest of the text. Each has one equation for each way in which it goes
on, so that nothing else needs to open their definitions.
-/

namespace LocalizedText

namespace Message

/-- What was read and what is left, unless there was a fault. -/
def outcome? {α : Type} {bound : Nat} :
    Except MessageFault (Read α bound) → Option (α × List Char)
  | .ok read => some (read.value, read.rest)
  | .error _ => none

/-- The message at the start of a text, and the rest. -/
def nodes? (inBranch inPlural : Bool) (depth : Nat) (input : List Char) :
    Option (Message × List Char) :=
  outcome? (readNodes inBranch inPlural depth input)

/-- The clause at the start of a text, its opening brace having been read, and the rest. -/
def clause? (inPlural : Bool) (depth : Nat) (input : List Char) :
    Option (MessageNode × List Char) :=
  outcome? (readClause inPlural depth input)

/-- The branches at the start of a text, apart from the one for all other cases, and the rest. -/
def branches? (kind : BranchKind) (inPlural : Bool) (depth : Nat) (input : List Char) :
    Option ((List (String × Message) × Option Message) × List Char) :=
  outcome? (readBranches kind inPlural depth input)

/-- A character that is no brace of a clause, in front of a message. -/
def consCharacter (inPlural : Bool) (character : Char) (message : Message) : Message :=
  if character = '#' ∧ inPlural = true then .pound :: message else consText [character] message

/-- A branch in front of others; the last one for all other cases counts. -/
def consBranch (selector : String) (body : Message)
    (following : List (String × Message) × Option Message) :
    List (String × Message) × Option Message :=
  if selector = "other" then (following.1, following.2 <|> some body)
  else ((selector, body) :: following.1, following.2)

section Nodes

variable {inBranch inPlural : Bool} {depth : Nat} {rest : List Char}

theorem nodes?_nil :
    nodes? inBranch inPlural depth [] = if inBranch then none else some ([], []) := by
  unfold nodes?
  rw [readNodes]
  cases inBranch <;> rfl

theorem nodes?_close :
    nodes? true inPlural depth ('\x7d' :: rest) = some ([], '\x7d' :: rest) := by
  unfold nodes?
  rw [readNodes]
  simp [outcome?]

theorem nodes?_character {character : Char} (noClause : character ≠ '\x7b')
    (noClose : ¬(character = '\x7d' ∧ inBranch = true)) :
    nodes? inBranch inPlural depth (character :: rest) =
      (nodes? inBranch inPlural depth rest).map fun following =>
        (consCharacter inPlural character following.1, following.2) := by
  unfold nodes?
  rw [readNodes, if_neg noClose, if_neg noClause]
  cases readNodes inBranch inPlural depth rest <;> rfl

theorem nodes?_clause {node : MessageNode} {left : List Char}
    (clause : clause? inPlural depth rest = some (node, left)) :
    nodes? inBranch inPlural depth ('\x7b' :: rest) =
      (nodes? inBranch inPlural depth left).map fun following =>
        (node :: following.1, following.2) := by
  unfold clause? at clause
  unfold nodes?
  rw [readNodes, if_neg (by simp), if_pos rfl]
  cases read : readClause inPlural depth rest with
  | error fault =>
      rw [read] at clause
      cases clause
  | ok found =>
      rw [read] at clause
      cases clause
      simp only
      cases readNodes inBranch inPlural depth found.rest <;> rfl

/-- A malformed clause stays as text up to its closing brace. -/
theorem nodes?_malformed (malformed : clause? inPlural depth rest = none) :
    nodes? inBranch inPlural depth ('\x7b' :: rest) =
      if (splitAtClosing 1 rest).2.isEmpty = true ∧ inBranch = true then none
      else
        (nodes? inBranch inPlural depth (splitAtClosing 1 rest).2).map fun following =>
          (consText ('\x7b' :: (splitAtClosing 1 rest).1) following.1, following.2) := by
  unfold clause? at malformed
  unfold nodes?
  rw [readNodes, if_neg (by simp), if_pos rfl]
  cases read : readClause inPlural depth rest with
  | ok found =>
      rw [read] at malformed
      cases malformed
  | error fault =>
      simp only
      split
      · rfl
      · cases readNodes inBranch inPlural depth (splitAtClosing 1 rest).2 <;> rfl

end Nodes

section Clauses

variable {inPlural : Bool} {depth : Nat} {input rest : List Char}

theorem clause?_fault {fault : MessageFault} (head : clauseHead input = .error fault) :
    clause? inPlural depth input = none := by
  unfold clause? readClause
  split <;> simp_all [outcome?]

theorem clause?_argument {name : String}
    (head : clauseHead input = .ok (.argument name, rest)) :
    clause? inPlural depth input = some (.argument name (clauseSource input rest), rest) := by
  unfold clause? readClause
  split <;> simp_all [outcome?]

theorem clause?_number {name : String} {style : MessageNumberStyle}
    (head : clauseHead input = .ok (.number name style, rest)) :
    clause? inPlural depth input =
      some (.number name style (clauseSource input rest), rest) := by
  unfold clause? readClause
  split <;> simp_all [outcome?]

/-- The clause of a head and of the branches after it. -/
def closeClause (name : String) (kind : BranchKind)
    (read : (List (String × Message) × Option Message) × List Char) :
    Option (MessageNode × List Char) :=
  read.1.2.bind fun other =>
    (branchesNode name kind read.1.1 other).toOption.map fun node => (node, read.2)

theorem clause?_branches {name : String} {kind : BranchKind}
    (head : clauseHead input = .ok (.branches name kind, rest)) :
    clause? inPlural depth input =
      if maxDepth ≤ depth then none
      else
        (branches? kind (inPlural || kind != .select) depth rest).bind (closeClause name kind) := by
  unfold clause? branches? readClause
  split
  · next found => rw [head] at found; cases found
  · next found => rw [head] at found; cases found
  · next found => rw [head] at found; cases found
  · next found =>
      rw [head] at found
      cases found
      split
      · rfl
      · cases readBranches kind (inPlural || kind != .select) depth rest with
        | error fault => rfl
        | ok read =>
            rcases read with ⟨⟨branches, other⟩, left, shorter⟩
            cases other with
            | none => rfl
            | some other =>
                simp only [outcome?, Option.bind_some, closeClause]
                cases branchesNode name kind branches other <;> rfl

theorem branches?_fault {kind : BranchKind} {fault : MessageFault}
    (head : branchHead kind input = .error fault) :
    branches? kind inPlural depth input = none := by
  unfold branches? readBranches
  split <;> simp_all [outcome?]

theorem branches?_close {kind : BranchKind} (head : branchHead kind input = .ok (.close, rest)) :
    branches? kind inPlural depth input = some (([], none), rest) := by
  unfold branches? readBranches
  split <;> simp_all [outcome?]

/-- The branches after one whose message was read, which a brace closes. -/
def closeBranch (kind : BranchKind) (inPlural : Bool) (depth : Nat) (selector : String)
    (body : Message × List Char) :
    Option ((List (String × Message) × Option Message) × List Char) :=
  match body.2 with
  | '\x7d' :: after =>
      (branches? kind inPlural depth after).map fun following =>
        (consBranch selector body.1 following.1, following.2)
  | _ => none

theorem branches?_branch {kind : BranchKind} {selector : String}
    (head : branchHead kind input = .ok (.branch selector, rest)) :
    branches? kind inPlural depth input =
      (nodes? true inPlural (depth + 1) rest).bind
        (closeBranch kind inPlural depth selector) := by
  unfold branches? nodes? readBranches
  split
  · next found => rw [head] at found; cases found
  · next found => rw [head] at found; cases found
  · next found =>
      rw [head] at found
      cases found
      cases readNodes true inPlural (depth + 1) rest with
      | error fault => rfl
      | ok body =>
          rcases body with ⟨body, left, shorter⟩
          cases left with
          | nil => rfl
          | cons character after =>
              by_cases closes : character = '\x7d'
              · subst closes
                simp only [outcome?, Option.bind_some, closeBranch, branches?]
                cases readBranches kind inPlural depth after <;> rfl
              · simp only [outcome?, Option.bind_some, closeBranch]
                split
                · simp_all
                · split
                  · simp_all
                  · rfl

end Clauses

/-- A clause whose branches choose the text for it. -/
def isBranching : MessageNode → Bool
  | .plural .. => true
  | .select .. => true
  | _ => false

/-- Branches make a clause of their own, without a look at the text. -/
theorem closeClause_eq_some {name : String} {kind : BranchKind} {node : MessageNode}
    {rest : List Char} {read : (List (String × Message) × Option Message) × List Char}
    (closed : closeClause name kind read = some (node, rest)) :
    isBranching node = true ∧ rest = read.2 := by
  rcases Option.bind_eq_some_iff.mp closed with ⟨other, _, made⟩
  rcases Option.map_eq_some_iff.mp made with ⟨clause, result, ⟨⟩⟩
  refine ⟨?_, rfl⟩
  unfold branchesNode at result
  split at result
  · cases result
    rfl
  · split at result
    · cases result
      rfl
    · cases result

theorem isText_of_isBranching {node : MessageNode} (branching : isBranching node = true) :
    isText node = false := by
  cases node with
  | text => cases branching
  | argument | pound | number | plural | select => rfl

/-- What is left after reading is shorter than the bound. -/
theorem length_of_outcome? {α : Type} {bound : Nat} {read : Except MessageFault (Read α bound)}
    {value : α} {rest : List Char} (found : outcome? read = some (value, rest)) :
    rest.length < bound := by
  cases read with
  | error fault => cases found
  | ok read =>
      cases found
      exact read.length_lt

theorem length_of_clause? {inPlural : Bool} {depth : Nat} {input rest : List Char}
    {node : MessageNode} (found : clause? inPlural depth input = some (node, rest)) :
    rest.length < input.length :=
  length_of_outcome? found

/-- A message outside of branches is read up to the end of the text. -/
theorem nodes?_outside (inPlural : Bool) (depth : Nat) (input : List Char) :
    ∃ message, nodes? false inPlural depth input = some (message, []) := by
  match input with
  | [] => exact ⟨[], nodes?_nil⟩
  | character :: rest =>
      by_cases opens : character = '\x7b'
      · subst opens
        cases clause : clause? inPlural depth rest with
        | some found =>
            rcases found with ⟨node, left⟩
            have shorter := length_of_clause? clause
            rcases nodes?_outside inPlural depth left with ⟨following, read⟩
            exact ⟨node :: following, by rw [nodes?_clause clause, read]; rfl⟩
        | none =>
            have shorter := length_splitAtClosing_le 1 rest
            rcases nodes?_outside inPlural depth (splitAtClosing 1 rest).2 with ⟨following, read⟩
            exact ⟨_, by rw [nodes?_malformed clause, if_neg (by simp), read]; rfl⟩
      · rcases nodes?_outside inPlural depth rest with ⟨following, read⟩
        exact ⟨_, by rw [nodes?_character opens (by simp), read]; rfl⟩
termination_by input.length

/-- Reading a text never falls back to the text itself. -/
theorem nodes?_ofText (text : String) :
    nodes? false false 0 text.toList = some (ofText text, []) := by
  rcases nodes?_outside false 0 text.toList with ⟨message, read⟩
  rw [read]
  unfold ofText
  unfold nodes? at read
  split
  · next found =>
      simp only [found, outcome?, Option.some.injEq, Prod.mk.injEq] at read
      rw [read.1]
  · next failed =>
      rw [failed] at read
      cases read

end Message

end LocalizedText
