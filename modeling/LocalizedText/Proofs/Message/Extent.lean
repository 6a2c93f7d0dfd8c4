import LocalizedText.Proofs.Message.Reading

/-!
# The extent of a clause

A clause that is read ends with the brace that matches its opening one, and a malformed clause is
kept up to the same brace. Nothing after that brace has a say in how the clause is read.

A text closes a number of braces when counting from that number comes to zero with its last
character and not before. All reading functions look at such a text alone: words end before a brace,
so a brace is only ever passed by the function that it opens or closes something for.
-/

namespace LocalizedText

namespace Message

/-- A text closes so many open braces, the outermost of them with its last character. -/
inductive Closes : Nat → List Char → Prop where
  | nil : Closes 0 []
  | opening {depth : Nat} {rest : List Char} (inside : Closes (depth + 2) rest) :
      Closes (depth + 1) ('\x7b' :: rest)
  | closing {depth : Nat} {rest : List Char} (outside : Closes depth rest) :
      Closes (depth + 1) ('\x7d' :: rest)
  | other {depth : Nat} {character : Char} {rest : List Char} (noOpen : character ≠ '\x7b')
      (noClose : character ≠ '\x7d') (inside : Closes (depth + 1) rest) :
      Closes (depth + 1) (character :: rest)

section Closes

variable {depth : Nat} {character : Char} {text rest : List Char}

theorem Closes.exists_cons (closes : Closes (depth + 1) text) :
    ∃ character rest, text = character :: rest := by
  cases closes with
  | opening inside => exact ⟨_, _, rfl⟩
  | closing outside => exact ⟨_, _, rfl⟩
  | other noOpen noClose inside => exact ⟨_, _, rfl⟩

theorem Closes.of_close (closes : Closes (depth + 1) ('\x7d' :: rest)) : Closes depth rest := by
  cases closes with
  | closing outside => exact outside
  | other noOpen noClose inside => exact absurd rfl noClose

theorem Closes.of_open (closes : Closes (depth + 1) ('\x7b' :: rest)) :
    Closes (depth + 2) rest := by
  cases closes with
  | opening inside => exact inside
  | other noOpen noClose inside => exact absurd rfl noOpen

theorem Closes.of_other (noOpen : character ≠ '\x7b') (noClose : character ≠ '\x7d')
    (closes : Closes (depth + 1) (character :: rest)) : Closes (depth + 1) rest := by
  cases closes with
  | opening inside => exact absurd rfl noOpen
  | closing outside => exact absurd rfl noClose
  | other _ _ inside => exact inside

/-- A text that closes some braces closes the inner ones with a part of it. -/
theorem Closes.split {text : List Char} (inner outer : Nat)
    (closes : Closes (inner + outer) text) :
    ∃ inside after, text = inside ++ after ∧ Closes inner inside ∧ Closes outer after := by
  cases inner with
  | zero =>
      rw [Nat.zero_add] at closes
      exact ⟨[], text, rfl, .nil, closes⟩
  | succ inner =>
      rw [Nat.add_right_comm] at closes
      cases closes with
      | @opening _ rest inside =>
          rw [Nat.add_right_comm] at inside
          rcases Closes.split (inner + 2) outer inside with ⟨front, after, rfl, ends, left⟩
          exact ⟨'\x7b' :: front, after, rfl, .opening ends, left⟩
      | @closing _ rest outside =>
          rcases Closes.split inner outer outside with ⟨front, after, rfl, ends, left⟩
          exact ⟨'\x7d' :: front, after, rfl, .closing ends, left⟩
      | @other _ character rest noOpen noClose inside =>
          rw [Nat.add_right_comm] at inside
          rcases Closes.split (inner + 1) outer inside with ⟨front, after, rfl, ends, left⟩
          exact ⟨character :: front, after, rfl, .other noOpen noClose ends, left⟩
termination_by text.length

/-- The scan for the closing brace stops where the braces are closed. -/
theorem splitAtClosing_of_closes (closes : Closes depth text) (positive : 0 < depth)
    (after : List Char) : splitAtClosing depth (text ++ after) = (text, after) := by
  induction closes with
  | nil => omega
  | opening inside inductionHypothesis =>
      have scanned := inductionHypothesis (by omega)
      rw [List.cons_append, splitAtClosing]
      simp [scanned]
  | @closing depth rest outside inductionHypothesis =>
      rw [List.cons_append, splitAtClosing]
      cases depth with
      | zero =>
          cases outside
          simp
      | succ depth =>
          have scanned := inductionHypothesis (by omega)
          simp [scanned]
  | other noOpen noClose inside inductionHypothesis =>
      have scanned := inductionHypothesis (by omega)
      rw [List.cons_append, splitAtClosing]
      simp [noOpen, noClose, scanned]

/-- Skipping characters that are no braces stays inside of the braces. -/
theorem Closes.dropWhile (property : Char → Bool) (closes : Closes (depth + 1) text)
    (noOpen : property '\x7b' = false) (noClose : property '\x7d' = false) :
    Closes (depth + 1) (text.dropWhile property) ∧
      ∀ after, (text ++ after).takeWhile property = text.takeWhile property ∧
        (text ++ after).dropWhile property = text.dropWhile property ++ after := by
  generalize total : depth + 1 = count at closes
  induction closes with
  | nil => omega
  | opening inside =>
      refine ⟨?_, ?_⟩
      · simpa [noOpen] using Closes.opening inside
      · simp [noOpen]
  | closing outside =>
      refine ⟨?_, ?_⟩
      · simpa [noClose] using Closes.closing outside
      · simp [noClose]
  | @other depth character rest apartOpen apartClose inside inductionHypothesis =>
      rcases inductionHypothesis total with ⟨left, spans⟩
      cases holds : property character with
      | true =>
          refine ⟨?_, ?_⟩
          · simpa [holds] using left
          · intro after
            simpa [holds] using spans after
      | false =>
          refine ⟨?_, ?_⟩
          · simpa [holds] using Closes.other apartOpen apartClose inside
          · simp [holds]

end Closes

/--
Reading looks at a text and at nothing after it: it fails whatever follows, or gives the same
whatever follows, and leaves a rest of the text for which a statement holds.
-/
def ReadsWithin {α : Type} (read : List Char → Option (α × List Char)) (text : List Char)
    (leaves : α → List Char → Prop) : Prop :=
  (∀ after, read (text ++ after) = none) ∨
    ∃ value rest, (∀ after, read (text ++ after) = some (value, rest ++ after)) ∧
      rest <:+ text ∧ leaves value rest

section Within

variable {α β : Type} {read other : List Char → Option (α × List Char)}
  {first : List Char → Option (β × List Char)} {text shorter : List Char}
  {leaves weaker : α → List Char → Prop} {between : β → List Char → Prop}

/-- Reading may go on with a rest of the text, and then with what that leaves. -/
theorem ReadsWithin.bind (next : β × List Char → Option (α × List Char))
    (suffix : shorter <:+ text)
    (same : ∀ after, read (text ++ after) = (first (shorter ++ after)).bind next)
    (within : ReadsWithin first shorter between)
    (goesOn : ∀ value rest, rest <:+ shorter → between value rest →
      ReadsWithin (fun input => next (value, input)) rest leaves) :
    ReadsWithin read text leaves := by
  rcases within with fails | ⟨value, rest, reads, restSuffix, left⟩
  · left
    intro after
    rw [same, fails]
    rfl
  · rcases goesOn value rest restSuffix left with fails | ⟨result, last, readsLast, ends, leftLast⟩
    · left
      intro after
      rw [same, reads]
      exact fails after
    · right
      refine ⟨result, last, ?_, (ends.trans restSuffix).trans suffix, leftLast⟩
      intro after
      rw [same, reads]
      exact readsLast after

/-- Reading may be reading a rest of the text and changing the value. -/
theorem ReadsWithin.map (change : β → α) (suffix : shorter <:+ text)
    (same : ∀ after, read (text ++ after) =
      (first (shorter ++ after)).map fun found => (change found.1, found.2))
    (within : ReadsWithin first shorter between)
    (implies : ∀ value rest, between value rest → leaves (change value) rest) :
    ReadsWithin read text leaves := by
  apply ReadsWithin.bind (fun found => some (change found.1, found.2)) suffix _ within
  · intro value rest _ left
    exact Or.inr ⟨change value, rest, fun after => rfl, List.suffix_rfl, implies value rest left⟩
  · intro after
    rw [same, Option.map_eq_bind]
    rfl

/-- Reading may go on with a rest of the text. -/
theorem ReadsWithin.of_suffix (suffix : shorter <:+ text)
    (same : ∀ after, read (text ++ after) = other (shorter ++ after))
    (within : ReadsWithin other shorter weaker)
    (implies : ∀ value rest, weaker value rest → leaves value rest) :
    ReadsWithin read text leaves := by
  apply ReadsWithin.map id suffix _ within implies
  intro after
  rw [same]
  exact Option.map_id_apply.symm

end Within

section Words

variable {depth : Nat} {text : List Char}

theorem Closes.skipBlank (closes : Closes (depth + 1) text) :
    Closes (depth + 1) (Text.skipBlank text) ∧
      ∀ after, Text.skipBlank (text ++ after) = Text.skipBlank text ++ after := by
  have skipped := closes.dropWhile Text.isAsciiBlank rfl rfl
  exact ⟨skipped.1, fun after => (skipped.2 after).2⟩

theorem Closes.word (stops : List Char) (closes : Closes (depth + 1) text)
    (noOpen : isWordChar stops '\x7b' = false) (noClose : isWordChar stops '\x7d' = false) :
    Closes (depth + 1) (afterWord stops text) ∧
      ∀ after, Message.word stops (text ++ after) = Message.word stops text ∧
        afterWord stops (text ++ after) = afterWord stops text ++ after :=
  closes.dropWhile (isWordChar stops) noOpen noClose

theorem skipBlank_suffix (text : List Char) : Text.skipBlank text <:+ text :=
  List.dropWhile_suffix _

theorem afterWord_suffix (stops text : List Char) : afterWord stops text <:+ text :=
  List.dropWhile_suffix _

end Words

section Heads

variable {depth : Nat} {text : List Char}

/-- A head that is the whole clause closes it; branches are still to be closed. -/
def HeadLeaves (depth : Nat) : ClauseHead → List Char → Prop
  | .branches _ _, rest => Closes (depth + 1) rest
  | _, rest => Closes depth rest

theorem closeHead_within (head : ClauseHead) (closes : Closes (depth + 1) text) :
    ReadsWithin (fun input => (closeHead head input).toOption) text
      fun value rest => value = head ∧ Closes depth rest := by
  rcases closes.exists_cons with ⟨character, rest, rfl⟩
  by_cases isClose : character = '\x7d'
  · subst isClose
    right
    exact ⟨head, rest, fun after => rfl, List.suffix_cons _ _, rfl, closes.of_close⟩
  · left
    intro after
    show (closeHead head (character :: (rest ++ after))).toOption = none
    unfold closeHead
    split
    · simp_all
    · rfl

theorem numberHead_within (name : String) (closes : Closes (depth + 1) text) :
    ReadsWithin (fun input => (numberHead name input).toOption) text (HeadLeaves depth) := by
  rcases closes.exists_cons with ⟨character, rest, rfl⟩
  by_cases comma : character = ','
  · subst comma
    have inside := closes.of_other (by decide) (by decide)
    rcases inside.skipBlank with ⟨blank, skip⟩
    rcases blank.word braces rfl rfl with ⟨worded, words⟩
    rcases worded.skipBlank with ⟨left, skipLeft⟩
    cases known : numberStyle? (Message.word braces (Text.skipBlank rest)) with
    | none =>
        left
        intro after
        simp only [List.cons_append, numberHead, skip, words, known]
        rfl
    | some style =>
        have suffix : Text.skipBlank (afterWord braces (Text.skipBlank rest)) <:+ ',' :: rest :=
          ((skipBlank_suffix _).trans (afterWord_suffix _ _)).trans
            ((skipBlank_suffix rest).trans (List.suffix_cons _ _))
        apply ReadsWithin.of_suffix suffix _ (closeHead_within (.number name style) left)
        · rintro _ rest ⟨rfl, closed⟩
          exact closed
        · intro after
          simp only [List.cons_append, numberHead, skip, words, known, skipLeft]
  · apply ReadsWithin.of_suffix List.suffix_rfl _
      (closeHead_within (.number name .standard) closes)
    · rintro _ rest ⟨rfl, closed⟩
      exact closed
    · intro after
      show (numberHead name (character :: (rest ++ after))).toOption = _
      unfold numberHead
      split
      · simp_all
      · rfl

theorem keywordHead_within (name : String) (closes : Closes (depth + 1) text) :
    ReadsWithin (fun input => (keywordHead name input).toOption) text (HeadLeaves depth) := by
  rcases closes.skipBlank with ⟨blank, skip⟩
  rcases blank.word keywordStops rfl rfl with ⟨worded, words⟩
  rcases worded.skipBlank with ⟨left, skipLeft⟩
  have suffix : Text.skipBlank (afterWord keywordStops (Text.skipBlank text)) <:+ text :=
    ((skipBlank_suffix _).trans (afterWord_suffix _ _)).trans (skipBlank_suffix text)
  by_cases number : Message.word keywordStops (Text.skipBlank text) = "number".toList
  · apply ReadsWithin.of_suffix suffix _ (numberHead_within name left) fun _ _ => id
    intro after
    simp only [keywordHead, skip, words, skipLeft, if_pos number]
  · rcases left.exists_cons with ⟨character, rest, found⟩
    rw [found] at left suffix
    simp only [ReadsWithin, keywordHead, skip, words, skipLeft, if_neg number, found,
      List.cons_append]
    cases branchKind? (Message.word keywordStops (Text.skipBlank text)) with
    | none => exact Or.inl fun after => rfl
    | some kind =>
        by_cases comma : character = ','
        · subst comma
          right
          exact ⟨.branches name kind, rest, fun after => rfl,
            (List.suffix_cons _ _).trans suffix, left.of_other (by decide) (by decide)⟩
        · left
          intro after
          split
          · simp_all
          · rfl

/-- Reading the head of a clause looks at nothing after the clause. -/
theorem clauseHead_within (closes : Closes (depth + 1) text) :
    ReadsWithin (fun input => (clauseHead input).toOption) text (HeadLeaves depth) := by
  rcases closes.skipBlank with ⟨blank, skip⟩
  rcases blank.word nameStops rfl rfl with ⟨worded, words⟩
  rcases worded.skipBlank with ⟨left, skipLeft⟩
  have suffix : Text.skipBlank (afterWord nameStops (Text.skipBlank text)) <:+ text :=
    ((skipBlank_suffix _).trans (afterWord_suffix _ _)).trans (skipBlank_suffix text)
  rcases left.exists_cons with ⟨character, rest, found⟩
  rw [found] at left suffix
  generalize Message.word nameStops (Text.skipBlank text) = name at words
  have reads (after : List Char) :
      clauseHead (text ++ after) =
        if name.isEmpty then .error .badName
        else if character = '\x7d' then .ok (.argument (String.ofList name), rest ++ after)
        else if character = ',' then keywordHead (String.ofList name) (rest ++ after)
        else .error .badName := by
    simp only [clauseHead, skip, words, skipLeft, found, List.cons_append]
    congr 1
    split
    · next same =>
        cases same
        rfl
    · next same =>
        cases same
        rfl
    · next notClose notComma =>
        simp_all
  cases empty : name.isEmpty with
  | true =>
      left
      intro after
      simp [reads, empty, Except.toOption]
  | false =>
      by_cases isClose : character = '\x7d'
      · subst isClose
        right
        refine ⟨.argument (String.ofList name), rest, ?_,
          (List.suffix_cons _ _).trans suffix, left.of_close⟩
        intro after
        simp [reads, empty, Except.toOption]
      · by_cases comma : character = ','
        · subst comma
          apply ReadsWithin.of_suffix ((List.suffix_cons _ _).trans suffix) _
            (keywordHead_within (String.ofList name) (left.of_other (by decide) (by decide)))
            fun _ _ => id
          intro after
          simp [reads, empty]
        · left
          intro after
          simp [reads, empty, isClose, comma, Except.toOption]

/-- What comes next among branches closes them, or opens the message of a branch. -/
def BranchLeaves (depth : Nat) : BranchHead → List Char → Prop
  | .close, rest => Closes depth rest
  | .branch _, rest => Closes (depth + 2) rest

/-- Reading what comes next among branches looks at nothing after their clause. -/
theorem branchHead_within (kind : BranchKind) (closes : Closes (depth + 1) text) :
    ReadsWithin (fun input => (branchHead kind input).toOption) text (BranchLeaves depth) := by
  rcases closes.skipBlank with ⟨blank, skip⟩
  rcases blank.word braces rfl rfl with ⟨worded, words⟩
  rcases worded.skipBlank with ⟨left, skipLeft⟩
  have suffix : Text.skipBlank (afterWord braces (Text.skipBlank text)) <:+ text :=
    ((skipBlank_suffix _).trans (afterWord_suffix _ _)).trans (skipBlank_suffix text)
  have blankSuffix := skipBlank_suffix text
  rcases left.exists_cons with ⟨next, rest, found⟩
  rcases blank.exists_cons with ⟨first, others, start⟩
  rw [found] at left suffix
  by_cases isClose : first = '\x7d'
  · subst isClose
    rw [start] at blank blankSuffix
    right
    refine ⟨.close, others, ?_, (List.suffix_cons _ _).trans blankSuffix, blank.of_close⟩
    intro after
    simp [branchHead, skip, start, Except.toOption]
  · generalize isWord : Message.word braces (Text.skipBlank text) = selector at words
    have reads (after : List Char) :
        branchHead kind (text ++ after) =
          if selector.isEmpty || !isSelector kind selector then .error .badSelector
          else if next = '\x7b' then .ok (.branch (String.ofList selector), rest ++ after)
          else .error .badSelector := by
      unfold branchHead
      rw [skip]
      split
      · next empty => simp [start] at empty
      · next closed => simp [start, isClose] at closed
      · simp only [words, skipLeft, found, List.cons_append]
        congr 1
        split
        · next same =>
            cases same
            rfl
        · next notOpen =>
            simp_all
    cases refused : selector.isEmpty || !isSelector kind selector with
    | true =>
        left
        intro after
        simp [reads, refused, Except.toOption]
    | false =>
        by_cases opens : next = '\x7b'
        · subst opens
          right
          refine ⟨.branch (String.ofList selector), rest, ?_,
            (List.suffix_cons _ _).trans suffix, left.of_open⟩
          intro after
          simp [reads, refused, Except.toOption]
        · left
          intro after
          simp [reads, refused, opens, Except.toOption]

end Heads

/-- The source of a clause that was read does not depend on what follows the clause. -/
theorem clauseSource_append_right (text rest after : List Char) :
    clauseSource (text ++ after) (rest ++ after) = clauseSource text rest := by
  unfold clauseSource consumed
  rw [List.length_append, List.length_append, Nat.add_sub_add_right, List.take_append_of_le_length]
  exact Nat.sub_le _ _

theorem eq_ok_of_toOption {α β : Type} {result : Except β α} {value : α}
    (found : result.toOption = some value) : result = .ok value := by
  cases result with
  | error fault => cases found
  | ok other =>
      cases found
      rfl

theorem eq_error_of_toOption {α β : Type} {result : Except β α} (failed : result.toOption = none) :
    ∃ fault, result = .error fault := by
  cases result with
  | error fault => exact ⟨fault, rfl⟩
  | ok other => cases failed

/-- Making a clause out of its branches looks at no text. -/
theorem closeClause_within {count : Nat} {rest : List Char} (name : String) (kind : BranchKind)
    (read : List (String × Message) × Option Message) (closed : Closes count rest) :
    ReadsWithin (fun input => closeClause name kind (read, input)) rest
      fun _ rest => Closes count rest := by
  rcases read with ⟨branches, other⟩
  cases other with
  | none => exact Or.inl fun after => rfl
  | some other =>
      cases made : (branchesNode name kind branches other).toOption with
      | none =>
          left
          intro after
          simp [closeClause, made]
      | some node =>
          right
          refine ⟨node, rest, ?_, List.suffix_rfl, closed⟩
          intro after
          simp [closeClause, made]

mutual

/-- The message of a branch is read up to the brace that closes the branch. -/
theorem nodes?_within (inPlural : Bool) (depth : Nat) {count : Nat} {text : List Char}
    (closes : Closes (count + 1) text) :
    ReadsWithin (nodes? true inPlural depth) text
      fun _ rest => ∃ after, rest = '\x7d' :: after ∧ Closes count after := by
  match text, closes with
  | '\x7d' :: rest, .closing outside =>
      right
      exact ⟨[], '\x7d' :: rest, fun after => nodes?_close, List.suffix_rfl, rest, rfl, outside⟩
  | character :: rest, .other noOpen noClose inside =>
      apply ReadsWithin.map (consCharacter inPlural character) (List.suffix_cons character rest) _
        (nodes?_within inPlural depth inside)
      · intro _ _ left
        exact left
      · intro after
        exact nodes?_character noOpen (by simp [noClose])
  | '\x7b' :: rest, .opening inside =>
      rcases clause?_within inPlural depth inside with fails | ⟨node, left, reads, suffix, closed⟩
      · have together : Closes (1 + (count + 1)) rest := by rwa [Nat.add_comm 1]
        rcases Closes.split 1 (count + 1) together with ⟨kept, left, rfl, keptCloses, leftCloses⟩
        have scanned (after : List Char) :
            splitAtClosing 1 (kept ++ left ++ after) = (kept, left ++ after) := by
          rw [List.append_assoc]
          exact splitAtClosing_of_closes keptCloses Nat.one_pos _
        have notEmpty (after : List Char) : (left ++ after).isEmpty = false := by
          rcases leftCloses.exists_cons with ⟨character, others, rfl⟩
          rfl
        have suffix : left <:+ '\x7b' :: (kept ++ left) :=
          (List.suffix_append kept left).trans (List.suffix_cons _ _)
        apply ReadsWithin.map (consText ('\x7b' :: kept)) suffix _
          (nodes?_within inPlural depth leftCloses)
        · intro _ _ isClose
          exact isClose
        · intro after
          rw [List.cons_append, nodes?_malformed (fails after), scanned, notEmpty]
          rfl
      · have shorter := suffix.length_le
        apply ReadsWithin.map (node :: ·) (suffix.trans (List.suffix_cons _ _)) _
          (nodes?_within inPlural depth closed)
        · intro _ _ isClose
          exact isClose
        · intro after
          exact nodes?_clause (reads after)
termination_by text.length

/-- A clause is read up to the brace that matches its opening one. -/
theorem clause?_within (inPlural : Bool) (depth : Nat) {count : Nat} {text : List Char}
    (closes : Closes (count + 1) text) :
    ReadsWithin (clause? inPlural depth) text fun _ rest => Closes count rest := by
  rcases clauseHead_within closes with fails | ⟨head, rest, reads, suffix, left⟩
  · left
    intro after
    rcases eq_error_of_toOption (fails after) with ⟨fault, failed⟩
    exact clause?_fault failed
  · have found (after : List Char) : clauseHead (text ++ after) = .ok (head, rest ++ after) :=
      eq_ok_of_toOption (reads after)
    cases head with
    | argument name =>
        right
        refine ⟨.argument name (clauseSource text rest), rest, ?_, suffix, left⟩
        intro after
        rw [clause?_argument (found after), clauseSource_append_right]
    | number name style =>
        right
        refine ⟨.number name style (clauseSource text rest), rest, ?_, suffix, left⟩
        intro after
        rw [clause?_number (found after), clauseSource_append_right]
    | branches name kind =>
        by_cases deep : maxDepth ≤ depth
        · left
          intro after
          rw [clause?_branches (found after), if_pos deep]
        · have shorter : rest.length < text.length := by
            simpa using length_of_clauseHead (found [])
          apply ReadsWithin.bind (closeClause name kind) suffix _
            (branches?_within kind (inPlural || kind != .select) depth left)
          · intro read rest _ closed
            exact closeClause_within name kind read closed
          · intro after
            rw [clause?_branches (found after), if_neg deep]
termination_by text.length

/-- Branches are read up to the brace that closes their clause. -/
theorem branches?_within (kind : BranchKind) (inPlural : Bool) (depth : Nat) {count : Nat}
    {text : List Char} (closes : Closes (count + 1) text) :
    ReadsWithin (branches? kind inPlural depth) text fun _ rest => Closes count rest := by
  rcases branchHead_within kind closes with fails | ⟨head, rest, reads, suffix, left⟩
  · left
    intro after
    rcases eq_error_of_toOption (fails after) with ⟨fault, failed⟩
    exact branches?_fault failed
  · have found (after : List Char) : branchHead kind (text ++ after) = .ok (head, rest ++ after) :=
      eq_ok_of_toOption (reads after)
    cases head with
    | close =>
        right
        exact ⟨([], none), rest, fun after => branches?_close (found after), suffix, left⟩
    | branch selector =>
        have shorter : rest.length < text.length := by
          simpa using length_of_branchHead (found [])
        apply ReadsWithin.bind (closeBranch kind inPlural depth selector) suffix
          (fun after => branches?_branch (found after))
          (nodes?_within inPlural (depth + 1) left)
        rintro body _ bodySuffix ⟨tail, rfl, tailCloses⟩
        have inside : tail.length < rest.length := by
          have := bodySuffix.length_le
          simp only [List.length_cons] at this
          omega
        apply ReadsWithin.map (consBranch selector body) (List.suffix_cons _ _) _
          (branches?_within kind inPlural depth tailCloses)
        · intro _ _ closed
          exact closed
        · intro after
          rfl
termination_by text.length

end

end Message

end LocalizedText
