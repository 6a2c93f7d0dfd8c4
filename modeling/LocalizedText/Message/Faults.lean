import LocalizedText.Event
import LocalizedText.Message.Reader

/-!
# Malformed clauses

Reading a message keeps malformed clauses as text without further notice. The functions here follow
the reading of a text once more and list the malformed clauses that it comes upon, a clause after
the ones within it.
-/

namespace LocalizedText

/-- A clause that was kept as text. -/
structure MalformedClause where
  fault : MessageFault
  /-- The text that was kept. -/
  source : String
deriving DecidableEq

namespace Message

mutual

/-- The malformed clauses of a message that is read at the start of a text. -/
def nodesFaults (inBranch inPlural : Bool) (depth : Nat) (input : List Char) :
    List MalformedClause :=
  match input with
  | [] => []
  | character :: rest =>
      if character = '\x7d' ∧ inBranch = true then []
      else if character = '\x7b' then
        clauseFaults inPlural depth rest ++
          match readClause inPlural depth rest with
          | .ok clause =>
              have := clause.length_lt
              nodesFaults inBranch inPlural depth clause.rest
          | .error fault =>
              have := length_splitAtClosing_le 1 rest
              ⟨fault, String.ofList (character :: (splitAtClosing 1 rest).1)⟩ ::
                nodesFaults inBranch inPlural depth (splitAtClosing 1 rest).2
      else nodesFaults inBranch inPlural depth rest
termination_by input.length

/-- The malformed clauses within a clause, whose opening brace has been read. -/
def clauseFaults (inPlural : Bool) (depth : Nat) (input : List Char) : List MalformedClause :=
  match found : clauseHead input with
  | .ok (.branches _ kind, rest) =>
      have := length_of_clauseHead found
      if maxDepth ≤ depth then []
      else branchesFaults kind (inPlural || kind != .select) depth rest
  | _ => []
termination_by input.length

/-- The malformed clauses within the branches at the start of a text. -/
def branchesFaults (kind : BranchKind) (inPlural : Bool) (depth : Nat) (input : List Char) :
    List MalformedClause :=
  match found : branchHead kind input with
  | .ok (.branch _, rest) =>
      have shorter := length_of_branchHead found
      nodesFaults true inPlural (depth + 1) rest ++
        match readNodes true inPlural (depth + 1) rest with
        | .error _ => []
        | .ok body =>
            match left : body.rest with
            | '\x7d' :: after =>
                have : after.length < rest.length := by
                  have := body.length_lt
                  rw [left] at this
                  simp only [List.length_cons] at this
                  omega
                branchesFaults kind inPlural depth after
            | _ => []
  | _ => []
termination_by input.length

end

/-- The malformed clauses of a text, in the order in which their ends are reached. -/
def faults (text : String) : List MalformedClause :=
  nodesFaults false false 0 text.toList

/-- What is told about a malformed clause. -/
def faultEvent (clause : MalformedClause) : Event where
  target := "lexis.icu"
  level := .warn
  message := "malformed message clause kept as text"
  fields := [("reason", clause.fault.description), ("clause", clause.source)]

end Message

end LocalizedText
