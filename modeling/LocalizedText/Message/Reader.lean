import LocalizedText.Message.Clause

/-!
# Reading messages

Reading a message never fails. A clause that is malformed stays as text up to the brace that matches
its opening one, or up to the end when there is none, and reading goes on after it. A number sign
stands for a number only within the branches of a count.

Each function takes what is left of the text and returns what it leaves, which is shorter; that is
why reading ends. Messages are built from their end, where text is joined to the text that follows.
-/

namespace LocalizedText

namespace Message

/-- Something read from a text, and the rest of the text, which is shorter than a bound. -/
structure Read (α : Type) (bound : Nat) where
  value : α
  rest : List Char
  length_lt : rest.length < bound

/--
A text up to the brace that closes the outermost of the given number of open braces, and what
follows it; the whole text when that brace is missing.
-/
def splitAtClosing (depth : Nat) : List Char → List Char × List Char
  | [] => ([], [])
  | character :: rest =>
      if character = '\x7d' ∧ depth ≤ 1 then ([character], rest)
      else
        let depth :=
          if character = '\x7b' then depth + 1
          else if character = '\x7d' then depth - 1
          else depth
        let (inside, after) := splitAtClosing depth rest
        (character :: inside, after)

theorem splitAtClosing_append (depth : Nat) (text : List Char) :
    (splitAtClosing depth text).1 ++ (splitAtClosing depth text).2 = text := by
  induction text generalizing depth with
  | nil => rfl
  | cons character rest ih =>
    unfold splitAtClosing
    split
    · rfl
    · simp only [List.cons_append, ih]

theorem length_splitAtClosing_le (depth : Nat) (text : List Char) :
    (splitAtClosing depth text).2.length ≤ text.length := by
  have whole := congrArg List.length (splitAtClosing_append depth text)
  simp only [List.length_append] at whole
  omega

/-- The part of a text in front of a rest of it. -/
def consumed (input rest : List Char) : List Char :=
  input.take (input.length - rest.length)

/-- The source of a clause: its opening brace and what was read after it. -/
def clauseSource (input rest : List Char) : String :=
  String.ofList ('\x7b' :: consumed input rest)

mutual

/--
The message at the start of a text. Within a branch it ends before the brace that closes the branch,
and a missing brace is a fault.
-/
def readNodes (inBranch inPlural : Bool) (depth : Nat) (input : List Char) :
    Except MessageFault (Read Message (input.length + 1)) :=
  match input with
  | [] => if inBranch then .error .unclosed else .ok ⟨[], [], Nat.lt_succ_self 0⟩
  | character :: rest =>
      if character = '\x7d' ∧ inBranch = true then
        .ok ⟨[], character :: rest, Nat.lt_succ_self _⟩
      else if character = '\x7b' then
        match readClause inPlural depth rest with
        | .ok clause =>
            have := clause.length_lt
            match readNodes inBranch inPlural depth clause.rest with
            | .ok following =>
                .ok ⟨clause.value :: following.value, following.rest, by
                  have := following.length_lt
                  simp only [List.length_cons]
                  omega⟩
            | .error fault => .error fault
        | .error _ =>
            have := length_splitAtClosing_le 1 rest
            -- A text that goes up to the end leaves nothing to close the branch around it.
            if (splitAtClosing 1 rest).2.isEmpty = true ∧ inBranch = true then .error .unclosed
            else
              match readNodes inBranch inPlural depth (splitAtClosing 1 rest).2 with
              | .ok following =>
                  .ok ⟨consText (character :: (splitAtClosing 1 rest).1) following.value,
                    following.rest, by
                      have := following.length_lt
                      simp only [List.length_cons]
                      omega⟩
              | .error fault => .error fault
      else
        match readNodes inBranch inPlural depth rest with
        | .ok following =>
            .ok ⟨if character = '#' ∧ inPlural = true then .pound :: following.value
                else consText [character] following.value,
              following.rest, by
                have := following.length_lt
                simp only [List.length_cons]
                omega⟩
        | .error fault => .error fault
termination_by input.length

/-- The clause at the start of a text, its opening brace having been read. -/
def readClause (inPlural : Bool) (depth : Nat) (input : List Char) :
    Except MessageFault (Read MessageNode input.length) :=
  match found : clauseHead input with
  | .error fault => .error fault
  | .ok (.argument name, rest) =>
      .ok ⟨.argument name (clauseSource input rest), rest, length_of_clauseHead found⟩
  | .ok (.number name style, rest) =>
      .ok ⟨.number name style (clauseSource input rest), rest, length_of_clauseHead found⟩
  | .ok (.branches name kind, rest) =>
      have shorter := length_of_clauseHead found
      if maxDepth ≤ depth then .error .tooDeep
      else
        match readBranches kind (inPlural || kind != .select) depth rest with
        | .error fault => .error fault
        | .ok read =>
            match read.value with
            | (_, none) => .error .missingOther
            | (branches, some other) =>
                match branchesNode name kind branches other with
                | .error fault => .error fault
                | .ok node =>
                    .ok ⟨node, read.rest, Nat.lt_trans read.length_lt shorter⟩
termination_by input.length

/--
The branches at the start of a text up to the brace that closes their clause: those with a selector
of their own in order, and the last one for all other cases.
-/
def readBranches (kind : BranchKind) (inPlural : Bool) (depth : Nat) (input : List Char) :
    Except MessageFault (Read (List (String × Message) × Option Message) input.length) :=
  match found : branchHead kind input with
  | .error fault => .error fault
  | .ok (.close, rest) => .ok ⟨([], none), rest, length_of_branchHead found⟩
  | .ok (.branch selector, rest) =>
      have shorter := length_of_branchHead found
      match readNodes true inPlural (depth + 1) rest with
      | .error fault => .error fault
      | .ok body =>
          match left : body.rest with
          | '\x7d' :: after =>
              have inside : after.length < rest.length := by
                have := body.length_lt
                rw [left] at this
                simp only [List.length_cons] at this
                omega
              match readBranches kind inPlural depth after with
              | .error fault => .error fault
              | .ok following =>
                  .ok ⟨if selector = "other" then
                      (following.value.1, following.value.2 <|> some body.value)
                    else ((selector, body.value) :: following.value.1, following.value.2),
                    following.rest, by
                      have := following.length_lt
                      omega⟩
          | _ => .error .unclosed
termination_by input.length

end

/-- The message that a text is read as. -/
def ofText (text : String) : Message :=
  match readNodes false false 0 text.toList with
  | .ok read => read.value
  | .error _ => [.text text]

end Message

end LocalizedText
