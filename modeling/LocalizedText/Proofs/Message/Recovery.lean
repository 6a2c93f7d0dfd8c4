import LocalizedText.Proofs.Message.Clause
import LocalizedText.Proofs.Message.Derivation

/-!
# Written messages are read back

Reading takes exactly what the grammar writes: a text run up to the next part, a clause up to its
closing brace, and the branches of a clause in their order, which does not matter in the end.
-/

namespace LocalizedText

namespace Message

section Runs

variable {inBranch inPlural : Bool} {depth : Nat} {input rest : List Char} {message : Message}

theorem consText_cons (character : Char) (content : List Char) (message : Message) :
    consText (character :: content) message = consText [character] (consText content message) := by
  cases content with
  | nil => simp [consText]
  | cons next content =>
      cases message with
      | nil => simp [consText]
      | cons node rest => cases node <;> simp [consText, ← String.append_assoc]

/-- A text run in front of a part that is no text is a part of its own. -/
theorem consText_run {content : String} (nonempty : content ≠ "")
    (apart : startsWithText message = false) :
    consText content.toList message = .text content :: message := by
  have characters : content.toList.isEmpty = false := by simpa using nonempty
  unfold consText
  rw [characters]
  cases message with
  | nil => simp
  | cons node rest => cases node <;> simp_all [startsWithText, isText]

theorem Derives.run {content : List Char} (plain : ∀ character ∈ content,
    character ≠ '\x7b' ∧ ¬(character = '\x7d' ∧ inBranch = true) ∧
      ¬(character = '#' ∧ inPlural = true))
    (following : Derives inBranch inPlural depth input message rest) :
    Derives inBranch inPlural depth (content ++ input) (consText content message) rest := by
  induction content with
  | nil => exact following
  | cons character content inductionHypothesis =>
      have others := inductionHypothesis fun other member =>
        plain other (List.mem_cons_of_mem _ member)
      rcases plain character (List.mem_cons_self ..) with ⟨noClause, noClose, noPound⟩
      have isText : consCharacter inPlural character (consText content message) =
          consText [character] (consText content message) := if_neg noPound
      rw [consText_cons, ← isText]
      exact .character noClause noClose others

theorem Derives.pound (following : Derives inBranch true depth input message rest) :
    Derives inBranch true depth ('#' :: input) (.pound :: message) rest := by
  have isSign : consCharacter true '#' message = .pound :: message := if_pos ⟨rfl, rfl⟩
  rw [← isSign]
  exact .character (by decide) (by simp) following

end Runs

section Recovery

/-- Where a message ends: before the brace that closes its branch, or with the text. -/
def EndsMessage : (inBranch : Bool) → List Char → Prop
  | true, rest => ∃ after, rest = '\x7d' :: after
  | false, rest => rest = []

theorem clauseSource_append (text rest : List Char) :
    clauseSource (text ++ rest) rest = String.ofList ('\x7b' :: text) := by
  simp [clauseSource, consumed]

/-- A clause with branches is read when it has one for all other cases and good selectors. -/
theorem closeClause_of_ok {name : String} {kind : BranchKind} {branches : List (String × Message)}
    {other : Message} {node : MessageNode} (rest : List Char)
    (isNode : branchesNode name kind branches other = .ok node) :
    closeClause name kind ((branches, some other), rest) = some (node, rest) := by
  simp [closeClause, isNode, Except.toOption]

-- The induction is on how a text is written; a branch ends where the one after it begins, so what
-- follows the text is left open.
mutual

/-- A written message is read up to its end. -/
theorem derives_of_written : ∀ {inBranch inPlural : Bool} {depth : Nat} {message : Message}
    {text : List Char}, Written inBranch inPlural depth message text →
    ∀ rest, EndsMessage inBranch rest →
      Derives inBranch inPlural depth (text ++ rest) message rest
  | inBranch, _, _, _, _, .nil => by
      intro rest ends
      cases inBranch with
      | false =>
          cases ends
          exact .nil
      | true =>
          rcases ends with ⟨after, rfl⟩
          exact .close after
  | _, _, _, _, _, .text run apart following => by
      intro rest ends
      rw [List.append_assoc, ← consText_run run.1 apart]
      exact (derives_of_written following rest ends).run run.2
  | _, _, _, _, _, .pound following => by
      intro rest ends
      exact (derives_of_written following rest ends).pound
  | _, _, _, _, _, .clause written following => by
      intro rest ends
      rw [List.cons_append, List.append_assoc]
      exact .clause (derivesClause_of_written written _) (derives_of_written following rest ends)

theorem derivesClause_of_written : ∀ {inPlural : Bool} {depth : Nat} {node : MessageNode}
    {text : List Char}, WrittenClause inPlural depth node text →
    ∀ rest, DerivesClause inPlural depth (text ++ rest) node rest
  | _, _, _, _, .argument word blanks blanksAfter => by
      intro rest
      rw [← clauseSource_append _ rest]
      apply DerivesClause.argument
      simp only [List.append_assoc, List.cons_append, List.nil_append]
      exact clauseHead_argument word blanks blanksAfter
  | _, _, _, _, .number opening writtenStyle => by
      intro rest
      rw [← clauseSource_append _ rest]
      apply DerivesClause.number
      simp only [List.append_assoc, List.cons_append, List.nil_append]
      exact clauseHead_number opening writtenStyle
  | _, _, _, _, @WrittenClause.plural inPlural _ name ordinal _ _ _ branches _ _ shallow opening
        sorted all written => by
      intro rest
      rcases branchesNode_count name ordinal sorted all with
        ⟨own, separated, isNode⟩
      have inside := derivesBranches_of_written written (if ordinal then .ordinal else .plural) _
        rest rfl (by
          intro branch member
          rcases List.mem_map.mp member with ⟨⟨selector, body⟩, -, rfl⟩
          exact ⟨selector.isWord, selector.isSelector⟩)
      have counts : (inPlural || (if ordinal then BranchKind.ordinal else .plural) != .select) =
          true := by
        cases ordinal <;> simp
      rw [separated] at inside
      simp only [List.append_assoc, List.cons_append, List.nil_append]
      refine .branches shallow (clauseHead_plural opening) ?_ (closeClause_of_ok rest isNode)
      rw [counts]
      exact inside
  | _, _, _, _, @WrittenClause.select inPlural _ name _ _ _ _ _ shallow opening sorted all
        written => by
      intro rest
      rcases branchesNode_select name sorted all with ⟨own, separated, isNode⟩
      have inside := derivesBranches_of_written written .select _ rest rfl (by
        intro branch member
        exact ⟨sorted.isWord_of_perm all member, rfl⟩)
      rw [separated] at inside
      simp only [List.append_assoc, List.cons_append, List.nil_append]
      refine .branches shallow (clauseHead_select opening) ?_ (closeClause_of_ok rest isNode)
      simpa using inside

/-- Written branches are read up to the closing brace of their clause. -/
theorem derivesBranches_of_written : ∀ {inPlural : Bool} {inside : Nat}
    {branches : List (String × Message)} {text : List Char},
    WrittenBranches inPlural inside branches text →
    ∀ (kind : BranchKind) (depth : Nat) (rest : List Char), inside = depth + 1 →
    (∀ branch ∈ branches, IsWord braces branch.1 ∧ isSelector kind branch.1.toList = true) →
      DerivesBranches kind inPlural depth (text ++ '\x7d' :: rest) (separate branches) rest
  | _, _, _, _, .nil areBlanks => by
      intro kind depth rest _ _
      exact .close (branchHead_close areBlanks)
  | _, _, _, _, .cons blanks blanksAfter written following => by
      intro kind depth rest sameDepth good
      rcases good _ (List.mem_cons_self ..) with ⟨isWord, isGood⟩
      have inside := fun after => derives_of_written written ('\x7d' :: after) ⟨after, rfl⟩
      have others := derivesBranches_of_written following kind depth rest sameDepth
        fun branch member => good branch (List.mem_cons_of_mem _ member)
      subst sameDepth
      simp only [List.append_assoc, List.cons_append]
      exact .branch (branchHead_branch blanks blanksAfter isWord isGood) (inside _) others

end

/-- A text is the message that is written in it. -/
theorem ofText_eq_of_written {message : Message} {text : String} {written : List Char}
    (isWritten : Written false false 0 message written) (isText : text.toList = written) :
    ofText text = message := by
  have derives := derives_of_written isWritten [] rfl
  rw [List.append_nil, ← isText] at derives
  exact derives.ofText

/-- A message is read back from its text. -/
theorem ofText_of_written {message : Message} {text : List Char}
    (written : Written false false 0 message text) : ofText (String.ofList text) = message := by
  have derives : Derives false false 0 (String.ofList text).toList message [] := by
    rw [String.toList_ofList, ← List.append_nil text]
    exact derives_of_written written [] rfl
  exact derives.ofText

/-- The branches of a clause come in any order, with blanks between its words. -/
theorem ofText_of_written_nested :
    ofText ("\x7bn, plural, =0 \x7bnone\x7d " ++
        "other \x7b# \x7bkind,select,other\x7b#\x7down \x7b\x7bat , number\x7d\x7d\x7d\x7d " ++
        "one\x7b\x7d\x7d # \x7bx\x7d") =
      [.plural "n" false [(0, [.text "none"])] [(.one, [])]
          [.pound, .text " ",
            .select "kind" [("own", [.number "at" .standard "\x7bat , number\x7d"])] [.pound]],
        .text " # ", .argument "x" "\x7bx\x7d"] := by
  have none : AreBlanks [] := by simp [AreBlanks]
  have one : AreBlanks [' '] := by simp [AreBlanks, Text.isAsciiBlank]
  have atHead : WrittenHead "at" "number" "at , number".toList :=
    ⟨[], [' '], [' '], [], none, one, one, none, by decide, rfl⟩
  have number : WrittenClause true 2 (.number "at" .standard "\x7bat , number\x7d") _ :=
    .number atHead .standard
  have kindHead : WrittenHead "kind" "select" "kind,select".toList :=
    ⟨[], [], [], [], none, none, none, none, by decide, rfl⟩
  have cases : AreCases [("own", [.number "at" .standard "\x7bat , number\x7d"])] := by
    refine ⟨List.pairwise_singleton _ _, ?_, by simp⟩
    intro branch member
    rw [List.mem_singleton.mp member]
    exact ⟨by simp, by simp; decide⟩
  have select : WrittenClause true 1
      (.select "kind" [("own", [.number "at" .standard "\x7bat , number\x7d"])] [.pound]) _ :=
    .select (by decide) kindHead cases (List.Perm.swap _ _ _)
      (.cons none none (.pound .nil) (.cons none one (.clause number .nil) (.nil none)))
  have zero : Written true true 1 [.text "none"] _ := .text (by decide) rfl .nil
  have space : IsRun true true " " := by decide
  have nHead : WrittenHead "n" "plural" "n, plural".toList :=
    ⟨[], [], [' '], [], none, none, one, none, by decide, rfl⟩
  have branches : AreCountBranches [(0, [.text "none"])] [(.one, [])] :=
    ⟨List.pairwise_singleton _ _, by simp, List.pairwise_singleton _ _, by simp⟩
  have plural : WrittenClause false 0
      (.plural "n" false [(0, [.text "none"])] [(.one, [])]
        [.pound, .text " ",
          .select "kind" [("own", [.number "at" .standard "\x7bat , number\x7d"])] [.pound]]) _ :=
    .plural (by decide) nHead branches ((List.Perm.swap _ _ _).cons _)
      (.cons one one zero (.cons one one (.pound (.text space rfl (.clause select .nil)))
        (.cons one none .nil (.nil none))))
  have sign : IsRun false false " # " := by decide
  have isName : IsWord nameStops "x" := by decide
  have read := ofText_of_written (.clause plural (.text sign rfl
    (.clause (.argument isName none none) .nil)))
  exact (congrArg ofText (by decide)).trans read

end Recovery

end Message

end LocalizedText
