import LocalizedText.Proofs.Message.Reading

/-!
# The ways of reading

There are few ways in which reading a message, a clause or branches comes to a value, and each of
them is a rule here. The rules derive all that is read and nothing else. So what holds of everything
that is read is proved with one case for each rule, where nothing is to be said about faults, and a
text is read as a message once the rules lead there.

Only that a clause is malformed is not derived, as there is no rule for it.
-/

namespace LocalizedText

namespace Message

mutual

/-- From a text a message is read, and a rest of the text is left. -/
inductive Derives : (inBranch inPlural : Bool) → (depth : Nat) → List Char → Message →
    List Char → Prop where
  | nil {inPlural : Bool} {depth : Nat} : Derives false inPlural depth [] [] []
  | close {inPlural : Bool} {depth : Nat} (rest : List Char) :
      Derives true inPlural depth ('\x7d' :: rest) [] ('\x7d' :: rest)
  | character {inBranch inPlural : Bool} {depth : Nat} {character : Char} {tail rest : List Char}
      {message : Message} (noClause : character ≠ '\x7b')
      (noClose : ¬(character = '\x7d' ∧ inBranch = true))
      (following : Derives inBranch inPlural depth tail message rest) :
      Derives inBranch inPlural depth (character :: tail)
        (consCharacter inPlural character message) rest
  | clause {inBranch inPlural : Bool} {depth : Nat} {node : MessageNode}
      {tail left rest : List Char} {message : Message}
      (clause : DerivesClause inPlural depth tail node left)
      (following : Derives inBranch inPlural depth left message rest) :
      Derives inBranch inPlural depth ('\x7b' :: tail) (node :: message) rest
  | malformed {inBranch inPlural : Bool} {depth : Nat} {tail rest : List Char} {message : Message}
      (malformed : clause? inPlural depth tail = none)
      (goesOn : inBranch = true → (splitAtClosing 1 tail).2 ≠ [])
      (following : Derives inBranch inPlural depth (splitAtClosing 1 tail).2 message rest) :
      Derives inBranch inPlural depth ('\x7b' :: tail)
        (consText ('\x7b' :: (splitAtClosing 1 tail).1) message) rest

/-- From a text after an opening brace a clause is read. -/
inductive DerivesClause : (inPlural : Bool) → (depth : Nat) → List Char → MessageNode →
    List Char → Prop where
  | argument {inPlural : Bool} {depth : Nat} {input rest : List Char} {name : String}
      (head : clauseHead input = .ok (.argument name, rest)) :
      DerivesClause inPlural depth input (.argument name (clauseSource input rest)) rest
  | number {inPlural : Bool} {depth : Nat} {input rest : List Char} {name : String}
      {style : MessageNumberStyle} (head : clauseHead input = .ok (.number name style, rest)) :
      DerivesClause inPlural depth input (.number name style (clauseSource input rest)) rest
  | branches {inPlural : Bool} {depth : Nat} {input left rest : List Char} {name : String}
      {kind : BranchKind} {read : List (String × Message) × Option Message} {node : MessageNode}
      (shallow : depth < maxDepth) (head : clauseHead input = .ok (.branches name kind, left))
      (inside : DerivesBranches kind (inPlural || kind != .select) depth left read rest)
      (closed : closeClause name kind (read, rest) = some (node, rest)) :
      DerivesClause inPlural depth input node rest

/-- From a text branches are read, apart from the one for all other cases. -/
inductive DerivesBranches : (kind : BranchKind) → (inPlural : Bool) → (depth : Nat) → List Char →
    List (String × Message) × Option Message → List Char → Prop where
  | close {kind : BranchKind} {inPlural : Bool} {depth : Nat} {input rest : List Char}
      (head : branchHead kind input = .ok (.close, rest)) :
      DerivesBranches kind inPlural depth input ([], none) rest
  | branch {kind : BranchKind} {inPlural : Bool} {depth : Nat} {selector : String}
      {input start after rest : List Char} {body : Message}
      {following : List (String × Message) × Option Message}
      (head : branchHead kind input = .ok (.branch selector, start))
      (inside : Derives true inPlural (depth + 1) start body ('\x7d' :: after))
      (others : DerivesBranches kind inPlural depth after following rest) :
      DerivesBranches kind inPlural depth input (consBranch selector body following) rest

end

mutual

/-- What a message was read from derives it. -/
theorem derives_of_nodes? {inBranch inPlural : Bool} {depth : Nat} {input rest : List Char}
    {message : Message} (read : nodes? inBranch inPlural depth input = some (message, rest)) :
    Derives inBranch inPlural depth input message rest := by
  match input with
  | [] =>
      rw [nodes?_nil] at read
      split at read
      · cases read
      · next outside =>
          cases read
          rw [Bool.eq_false_iff.mpr outside]
          exact .nil
  | character :: tail =>
      by_cases opens : character = '\x7b'
      · subst opens
        cases clause : clause? inPlural depth tail with
        | some found =>
            rcases found with ⟨node, left⟩
            have shorter := length_of_clause? clause
            rw [nodes?_clause clause] at read
            rcases Option.map_eq_some_iff.mp read with ⟨⟨following, _⟩, goesOn, ⟨⟩⟩
            exact .clause (derivesClause_of_clause? clause) (derives_of_nodes? goesOn)
        | none =>
            have shorter := length_splitAtClosing_le 1 tail
            rw [nodes?_malformed clause] at read
            split at read
            · cases read
            · next goesOn =>
                rcases Option.map_eq_some_iff.mp read with ⟨⟨following, _⟩, found, ⟨⟩⟩
                refine .malformed clause ?_ (derives_of_nodes? found)
                intro inside ends
                exact goesOn ⟨List.isEmpty_iff.mpr ends, inside⟩
      · by_cases closes : character = '\x7d' ∧ inBranch = true
        · rcases closes with ⟨rfl, rfl⟩
          rw [nodes?_close] at read
          cases read
          exact .close tail
        · rw [nodes?_character opens closes] at read
          rcases Option.map_eq_some_iff.mp read with ⟨⟨following, _⟩, goesOn, ⟨⟩⟩
          exact .character opens closes (derives_of_nodes? goesOn)
termination_by input.length

theorem derivesClause_of_clause? {inPlural : Bool} {depth : Nat} {input rest : List Char}
    {node : MessageNode} (read : clause? inPlural depth input = some (node, rest)) :
    DerivesClause inPlural depth input node rest := by
  cases head : clauseHead input with
  | error fault =>
      rw [clause?_fault head] at read
      cases read
  | ok opening =>
      rcases opening with ⟨opening, left⟩
      cases opening with
      | argument name =>
          rw [clause?_argument head] at read
          cases read
          exact .argument head
      | number name style =>
          rw [clause?_number head] at read
          cases read
          exact .number head
      | branches name kind =>
          have shorter := length_of_clauseHead head
          rw [clause?_branches head] at read
          split at read
          · cases read
          · next shallow =>
              rcases Option.bind_eq_some_iff.mp read with ⟨⟨branches, after⟩, found, closed⟩
              have same : rest = after := (closeClause_eq_some closed).2
              subst same
              have inside := derivesBranches_of_branches? found
              exact .branches (Nat.lt_of_not_le shallow) head inside closed
termination_by input.length

theorem derivesBranches_of_branches? {kind : BranchKind} {inPlural : Bool} {depth : Nat}
    {input rest : List Char} {branches : List (String × Message) × Option Message}
    (read : branches? kind inPlural depth input = some (branches, rest)) :
    DerivesBranches kind inPlural depth input branches rest := by
  cases head : branchHead kind input with
  | error fault =>
      rw [branches?_fault head] at read
      cases read
  | ok next =>
      rcases next with ⟨next, left⟩
      cases next with
      | close =>
          rw [branches?_close head] at read
          cases read
          exact .close head
      | branch selector =>
          have shorter := length_of_branchHead head
          rw [branches?_branch head] at read
          rcases Option.bind_eq_some_iff.mp read with ⟨⟨body, tail⟩, found, closed⟩
          unfold closeBranch at closed
          split at closed
          · next after ends =>
              cases ends
              have further : after.length < input.length := by
                have := length_of_outcome? found
                simp only [List.length_cons] at this
                omega
              rcases Option.map_eq_some_iff.mp closed with ⟨⟨following, _⟩, goesOn, ⟨⟩⟩
              exact .branch head (derives_of_nodes? found) (derivesBranches_of_branches? goesOn)
          · cases closed
termination_by input.length

end

mutual

/-- What derives a message is read as it. -/
theorem Derives.nodes? : ∀ {inBranch inPlural : Bool} {depth : Nat} {input rest : List Char}
    {message : Message}, Derives inBranch inPlural depth input message rest →
    nodes? inBranch inPlural depth input = some (message, rest)
  | _, _, _, _, _, _, .nil => nodes?_nil
  | _, _, _, _, _, _, .close _ => nodes?_close
  | _, _, _, _, _, _, .character noClause noClose following => by
      rw [nodes?_character noClause noClose, following.nodes?]
      rfl
  | _, _, _, _, _, _, .clause clause following => by
      rw [nodes?_clause clause.clause?, following.nodes?]
      rfl
  | _, _, _, _, _, _, .malformed malformed goesOn following => by
      rw [nodes?_malformed malformed, if_neg, following.nodes?]
      · rfl
      · rintro ⟨ends, inside⟩
        exact goesOn inside (List.isEmpty_iff.mp ends)

theorem DerivesClause.clause? : ∀ {inPlural : Bool} {depth : Nat} {input rest : List Char}
    {node : MessageNode}, DerivesClause inPlural depth input node rest →
    clause? inPlural depth input = some (node, rest)
  | _, _, _, _, _, .argument head => clause?_argument head
  | _, _, _, _, _, .number head => clause?_number head
  | _, _, _, _, _, .branches shallow head inside closed => by
      rw [clause?_branches head, if_neg (Nat.not_le.mpr shallow), inside.branches?]
      exact closed

theorem DerivesBranches.branches? : ∀ {kind : BranchKind} {inPlural : Bool} {depth : Nat}
    {input rest : List Char} {branches : List (String × Message) × Option Message},
    DerivesBranches kind inPlural depth input branches rest →
    branches? kind inPlural depth input = some (branches, rest)
  | _, _, _, _, _, _, .close head => branches?_close head
  | _, _, _, _, _, _, .branch head inside others => by
      rw [branches?_branch head, inside.nodes?]
      exact congrArg (Option.map _) others.branches?

end

/-- A clause that is read is no text. -/
theorem DerivesClause.isText_eq_false {inPlural : Bool} {depth : Nat} {input rest : List Char}
    {node : MessageNode} (derives : DerivesClause inPlural depth input node rest) :
    isText node = false := by
  cases derives with
  | argument => rfl
  | number => rfl
  | branches shallow head inside closed =>
      exact isText_of_isBranching (closeClause_eq_some closed).1

/-- Every text derives its message. -/
theorem derives_ofText (text : String) : Derives false false 0 text.toList (ofText text) [] :=
  derives_of_nodes? (nodes?_ofText text)

/-- A text is read as the message that it derives. -/
theorem Derives.ofText {text : String} {message : Message}
    (derives : Derives false false 0 text.toList message []) : ofText text = message := by
  have read := derives.nodes?
  rw [nodes?_ofText] at read
  exact congrArg Prod.fst (Option.some.inj read)

end Message

end LocalizedText
