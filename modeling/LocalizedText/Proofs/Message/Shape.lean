import LocalizedText.Proofs.Message.Branches
import LocalizedText.Proofs.Message.Grammar
import LocalizedText.Proofs.Message.Slices

/-!
# The shape of messages that were read

However malformed a text is, the message that it is read as has a certain shape. At every level no
text is empty, none follows another, and a number stands for a sign only within the branches of a
count. Clauses with branches are nested up to a bound. Names are words, currencies have a code, and
the branch for all other cases is never among those with a selector of their own.

Reading makes messages from their end and clauses from the messages of their branches, and each of
these steps keeps the shape. A malformed clause that stays as text is joined to the text after it.
-/

namespace LocalizedText

def MessageNode.isCount : MessageNode → Bool
  | .plural .. => true
  | _ => false

namespace Message

/-- A name without blanks and without any of the characters that structure a clause. -/
def IsPlainName (name : String) : Prop :=
  name ≠ "" ∧ ∀ character ∈ name.toList,
    character ∉ [' ', '\t', '\n', '\x0C', '\r', '\x7b', '\x7d', ',', '#']

/-- A currency in a message has a code. -/
def HasCode (style : MessageNumberStyle) : Prop :=
  ∀ code, style = .currency code → code ≠ ""

mutual

/--
A message that may come from reading, within the branches of a count or not, and within so many
clauses with branches.
-/
inductive IsShaped : (inPlural : Bool) → (depth : Nat) → Message → Prop where
  | nil {inPlural : Bool} {depth : Nat} : IsShaped inPlural depth []
  | text {inPlural : Bool} {depth : Nat} {content : String} {message : Message}
      (nonempty : content ≠ "") (apart : startsWithText message = false)
      (following : IsShaped inPlural depth message) :
      IsShaped inPlural depth (.text content :: message)
  | pound {depth : Nat} {message : Message} (following : IsShaped true depth message) :
      IsShaped true depth (.pound :: message)
  | clause {inPlural : Bool} {depth : Nat} {node : MessageNode} {message : Message}
      (shaped : IsShapedClause inPlural depth node)
      (following : IsShaped inPlural depth message) :
      IsShaped inPlural depth (node :: message)

/-- A clause that may come from reading. -/
inductive IsShapedClause : (inPlural : Bool) → (depth : Nat) → MessageNode → Prop where
  | argument {inPlural : Bool} {depth : Nat} {name source : String} (isName : IsPlainName name) :
      IsShapedClause inPlural depth (.argument name source)
  | number {inPlural : Bool} {depth : Nat} {name source : String} {style : MessageNumberStyle}
      (isName : IsPlainName name) (hasCode : HasCode style) :
      IsShapedClause inPlural depth (.number name style source)
  | plural {inPlural : Bool} {depth : Nat} {name : String} {ordinal : Bool}
      {exact : List (Int × Message)} {categories : List (PluralCategory × Message)}
      {other : Message} (shallow : depth < maxDepth) (isName : IsPlainName name)
      (noOther : ∀ branch ∈ categories, branch.1 ≠ .other)
      (inside : ∀ body ∈ (MessageNode.plural name ordinal exact categories other).bodies,
        IsShaped true (depth + 1) body) :
      IsShapedClause inPlural depth (.plural name ordinal exact categories other)
  | select {inPlural : Bool} {depth : Nat} {name : String} {cases : List (String × Message)}
      {other : Message} (shallow : depth < maxDepth) (isName : IsPlainName name)
      (noOther : ∀ branch ∈ cases, branch.1 ≠ "other")
      (inside : ∀ body ∈ (MessageNode.select name cases other).bodies,
        IsShaped inPlural (depth + 1) body) :
      IsShapedClause inPlural depth (.select name cases other)

end

section Steps

variable {inPlural : Bool} {depth : Nat} {message : Message}

/-- A text in front of a message is joined to one that the message starts with. -/
theorem IsShaped.consText (shaped : IsShaped inPlural depth message) (content : List Char) :
    IsShaped inPlural depth (consText content message) := by
  cases content with
  | nil => exact shaped
  | cons character content =>
      have nonempty : String.ofList (character :: content) ≠ "" := by simp
      simp only [Message.consText, List.isEmpty_cons, Bool.false_eq_true, if_false]
      split
      · next next rest =>
          cases shaped with
          | text _ apart following => exact .text (by simp) apart following
          | clause shaped => cases shaped
      · next apart =>
          refine .text nonempty ?_ shaped
          cases message with
          | nil => rfl
          | cons first rest =>
              cases first with
              | text next => exact absurd rfl (apart next rest)
              | argument | pound | number | plural | select => rfl

theorem IsShaped.consCharacter (shaped : IsShaped inPlural depth message) (character : Char) :
    IsShaped inPlural depth (consCharacter inPlural character message) := by
  unfold Message.consCharacter
  split
  · next sign =>
      rw [sign.2] at shaped ⊢
      exact .pound shaped
  · exact shaped.consText [character]

end Steps

section Heads

variable {input rest : List Char} {found : ClauseHead}

/-- What the head of a clause says about its argument. -/
def IsShapedHead : ClauseHead → Prop
  | .argument name => IsPlainName name
  | .number name style => IsPlainName name ∧ HasCode style
  | .branches name _ => IsPlainName name

theorem isPlainName_word (nonempty : (word nameStops input).isEmpty = false) :
    IsPlainName (String.ofList (word nameStops input)) := by
  refine ⟨by simpa using nonempty, ?_⟩
  rw [String.toList_ofList]
  intro character member
  have inWord := List.mem_takeWhile_imp member
  simp only [isWordChar, Text.isAsciiBlank, nameStops, Bool.and_eq_true, Bool.not_eq_true',
    Bool.or_eq_false_iff, beq_eq_false_iff_ne] at inWord
  simp_all

theorem hasCode_of_numberStyle? {word : List Char} {style : MessageNumberStyle}
    (named : numberStyle? word = some style) : HasCode style := by
  rintro code rfl
  unfold numberStyle? at named
  split at named
  · cases named
  · split at named
    · cases named
    · split at named
      · cases named
      · simp only [Option.ite_none_right_eq_some, Option.some.injEq,
          MessageNumberStyle.currency.injEq, Bool.and_eq_true, decide_eq_true_eq] at named
        rcases named with ⟨⟨-, longer⟩, rfl⟩
        simpa using longer

theorem isShapedHead_of_numberHead {name : String} (isName : IsPlainName name)
    (read : numberHead name input = .ok (found, rest)) : IsShapedHead found := by
  unfold numberHead at read
  split at read
  · simp only at read
    split at read
    · cases read
    · next named =>
        rw [(takes_closeHead read).1]
        exact ⟨isName, hasCode_of_numberStyle? named⟩
  · rw [(takes_closeHead read).1]
    exact ⟨isName, nofun⟩

theorem isShapedHead_of_keywordHead {name : String} (isName : IsPlainName name)
    (read : keywordHead name input = .ok (found, rest)) : IsShapedHead found := by
  unfold keywordHead at read
  simp only at read
  split at read
  · exact isShapedHead_of_numberHead isName read
  · split at read
    · cases read
      exact isName
    · cases read

theorem isShapedHead_of_clauseHead (read : clauseHead input = .ok (found, rest)) :
    IsShapedHead found := by
  unfold clauseHead at read
  simp only at read
  split at read
  · cases read
  · next nonempty =>
      have isName := isPlainName_word (by simpa using nonempty)
      split at read
      · cases read
        exact isName
      · exact isShapedHead_of_keywordHead isName read
      · cases read

end Heads

section Branches

variable {inPlural : Bool} {depth : Nat}

/-- Sorted branches are among those that were sorted, and a category is selected by its name. -/
theorem mem_of_sortInto {exact : List (Int × Message)}
    {categories : List (PluralCategory × Message)} {branches : List (String × Message)}
    {sorted : List (Int × Message) × List (PluralCategory × Message)}
    (done : sortInto exact categories branches = some sorted) :
    (∀ branch ∈ sorted.1, branch ∈ exact ∨ branch.2 ∈ branches.map Prod.snd) ∧
      ∀ branch ∈ sorted.2, branch ∈ categories ∨ (branch.1.name, branch.2) ∈ branches := by
  induction branches generalizing exact categories with
  | nil =>
      cases done
      exact ⟨fun _ => Or.inl, fun _ => Or.inl⟩
  | cons first branches inductionHypothesis =>
      rcases first with ⟨selector, body⟩
      unfold sortInto at done
      split at done
      · split at done
        · rcases inductionHypothesis done with ⟨exactly, others⟩
          constructor
          · intro branch member
            rcases exactly branch member with before | later
            · rcases Keyed.mem_of_mem_insert before with rfl | before
              · exact Or.inr (by simp)
              · exact Or.inl before
            · exact Or.inr (List.mem_cons_of_mem _ later)
          · intro branch member
            exact (others branch member).imp_right (List.mem_cons_of_mem _)
        · cases done
      · split at done
        · next category named =>
            rcases inductionHypothesis done with ⟨exactly, others⟩
            constructor
            · intro branch member
              exact (exactly branch member).imp_right (List.mem_cons_of_mem _)
            · intro branch member
              rcases others branch member with before | later
              · rcases Keyed.mem_of_mem_insert before with rfl | before
                · rw [PluralCategory.ofName?_eq_some_iff] at named
                  exact Or.inr (by simp [named])
                · exact Or.inl before
              · exact Or.inr (List.mem_cons_of_mem _ later)
        · cases done

/-- Branches that were read: those with a selector of their own, and the one for all other cases. -/
structure AreShapedBranches (inPlural : Bool) (depth : Nat)
    (read : List (String × Message) × Option Message) : Prop where
  own : ∀ branch ∈ read.1, branch.1 ≠ "other" ∧ IsShaped inPlural depth branch.2
  others : ∀ other ∈ read.2, IsShaped inPlural depth other

theorem AreShapedBranches.consBranch {body : Message}
    {following : List (String × Message) × Option Message}
    (shaped : AreShapedBranches inPlural depth following) (selector : String)
    (inside : IsShaped inPlural depth body) :
    AreShapedBranches inPlural depth (consBranch selector body following) := by
  unfold Message.consBranch
  split
  · refine ⟨shaped.own, ?_⟩
    cases last : following.2 with
    | none => simpa using inside
    | some other => simpa using shaped.others other last
  · next own => exact ⟨List.forall_mem_cons.mpr ⟨⟨own, inside⟩, shaped.own⟩, shaped.others⟩

/-- A clause is made of its name and its branches, however these are sorted. -/
theorem isShapedClause_of_closeClause {name : String} {kind : BranchKind} {node : MessageNode}
    {rest : List Char} {read : (List (String × Message) × Option Message) × List Char}
    (shallow : depth < maxDepth) (isName : IsPlainName name)
    (shaped : AreShapedBranches (inPlural || kind != .select) (depth + 1) read.1)
    (closed : closeClause name kind read = some (node, rest)) :
    IsShapedClause inPlural depth node := by
  rcases Option.bind_eq_some_iff.mp closed with ⟨other, isOther, made⟩
  rcases Option.map_eq_some_iff.mp made with ⟨clause, result, ⟨⟩⟩
  have otherShaped := shaped.others other isOther
  unfold branchesNode at result
  split at result
  · cases result
    have uncounted : (inPlural || BranchKind.select != .select) = inPlural := Bool.or_false _
    rw [uncounted] at shaped otherShaped
    refine .select shallow isName (fun branch member => ?_) (fun body isBody => ?_)
    · exact (shaped.own branch (Keyed.mem_of_mem_ofList member)).1
    · simp only [MessageNode.bodies, List.mem_append, List.mem_map, List.mem_singleton] at isBody
      rcases isBody with ⟨branch, member, rfl⟩ | rfl
      · exact (shaped.own branch (Keyed.mem_of_mem_ofList member)).2
      · exact otherShaped
  · next notSelect =>
      have counted : (inPlural || kind != .select) = true :=
        Bool.or_eq_true_iff.mpr (Or.inr (bne_iff_ne.mpr notSelect))
      rw [counted] at shaped otherShaped
      split at result
      · next exact categories sorted =>
          cases result
          rcases mem_of_sortInto sorted with ⟨exactly, named⟩
          have categoryBranch : ∀ branch ∈ categories, (branch.1.name, branch.2) ∈ read.1.1 :=
            fun branch member => (named branch member).resolve_left (by simp)
          refine .plural shallow isName (fun branch member isOther => ?_) (fun body isBody => ?_)
          · exact (shaped.own _ (categoryBranch branch member)).1 (by rw [isOther]; rfl)
          · simp only [MessageNode.bodies, List.mem_append, List.mem_map, List.mem_singleton]
              at isBody
            rcases isBody with ⟨branch, member, rfl⟩ | ⟨branch, member, rfl⟩ | rfl
            · rcases List.mem_map.mp ((exactly branch member).resolve_left (by simp)) with
                ⟨own, isOwn, same⟩
              exact same ▸ (shaped.own own isOwn).2
            · exact (shaped.own _ (categoryBranch branch member)).2
            · exact otherShaped
      · cases result

end Branches

mutual

/-- A message that was read has the shape of one. -/
theorem Derives.isShaped : ∀ {inBranch inPlural : Bool} {depth : Nat} {input rest : List Char}
    {message : Message}, Derives inBranch inPlural depth input message rest →
    IsShaped inPlural depth message
  | _, _, _, _, _, _, .nil => .nil
  | _, _, _, _, _, _, .close _ => .nil
  | _, _, _, _, _, _, .character _ _ following => following.isShaped.consCharacter _
  | _, _, _, _, _, _, .clause clause following => .clause clause.isShapedClause following.isShaped
  | _, _, _, _, _, _, .malformed _ _ following => following.isShaped.consText _

theorem DerivesClause.isShapedClause : ∀ {inPlural : Bool} {depth : Nat} {input rest : List Char}
    {node : MessageNode}, DerivesClause inPlural depth input node rest →
    IsShapedClause inPlural depth node
  | _, _, _, _, _, .argument head => .argument (isShapedHead_of_clauseHead head)
  | _, _, _, _, _, .number head => by
      rcases isShapedHead_of_clauseHead head with ⟨isName, hasCode⟩
      exact .number isName hasCode
  | _, _, _, _, _, .branches shallow head inside closed =>
      isShapedClause_of_closeClause shallow (isShapedHead_of_clauseHead head)
        inside.areShapedBranches closed

/-- The messages of branches lie one clause deeper than the clause. -/
theorem DerivesBranches.areShapedBranches : ∀ {kind : BranchKind} {inPlural : Bool} {depth : Nat}
    {input rest : List Char} {branches : List (String × Message) × Option Message},
    DerivesBranches kind inPlural depth input branches rest →
    AreShapedBranches inPlural (depth + 1) branches
  | _, _, _, _, _, _, .close _ => ⟨by simp, by simp⟩
  | _, _, _, _, _, _, .branch _ inside others =>
      others.areShapedBranches.consBranch _ inside.isShaped

end

theorem isShaped_ofText (text : String) : IsShaped false 0 (ofText text) :=
  (derives_ofText text).isShaped

section Parts

variable {inPlural : Bool} {depth : Nat} {message body : Message} {node : MessageNode}

theorem IsShaped.of_mem (shaped : IsShaped inPlural depth message) (member : node ∈ message) :
    (∃ content, node = .text content ∧ content ≠ "") ∨ (node = .pound ∧ inPlural = true) ∨
      IsShapedClause inPlural depth node := by
  induction message with
  | nil => cases member
  | cons first rest inductionHypothesis =>
      have cases : ((∃ content, first = .text content ∧ content ≠ "") ∨
          (first = .pound ∧ inPlural = true) ∨ IsShapedClause inPlural depth first) ∧
            IsShaped inPlural depth rest := by
        cases shaped with
        | text nonempty _ following => exact ⟨Or.inl ⟨_, rfl, nonempty⟩, following⟩
        | pound following => exact ⟨Or.inr (Or.inl ⟨rfl, rfl⟩), following⟩
        | clause clause following => exact ⟨Or.inr (Or.inr clause), following⟩
      rcases List.mem_cons.mp member with rfl | later
      · exact cases.1
      · exact inductionHypothesis cases.2 later

theorem IsShaped.ne_texts (shaped : IsShaped inPlural depth message) (front : Message)
    (content next : String) (back : Message) :
    message ≠ front ++ .text content :: .text next :: back := by
  rintro rfl
  induction front with
  | nil =>
      cases shaped with
      | text _ apart => cases apart
      | clause clause => cases clause
  | cons first front inductionHypothesis =>
      rw [List.cons_append] at shaped
      cases shaped with
      | text _ _ following => exact inductionHypothesis following
      | pound following => exact inductionHypothesis following
      | clause _ following => exact inductionHypothesis following

/-- Within a clause that was read there are shaped messages, one clause deeper. -/
theorem IsShapedClause.of_mem_bodies (shaped : IsShapedClause inPlural depth node)
    (isBody : body ∈ node.bodies) :
    depth < maxDepth ∧ IsShaped (inPlural || node.isCount) (depth + 1) body := by
  cases shaped with
  | argument => cases isBody
  | number => cases isBody
  | plural shallow _ _ inside =>
      have counted : (inPlural || true) = true := Bool.or_true _
      exact ⟨shallow, counted.symm ▸ inside body isBody⟩
  | select shallow _ _ inside =>
      have uncounted : (inPlural || false) = inPlural := Bool.or_false _
      exact ⟨shallow, uncounted.symm ▸ inside body isBody⟩

theorem IsShaped.of_mem_bodies (shaped : IsShaped inPlural depth message) (member : node ∈ message)
    (isBody : body ∈ node.bodies) :
    depth < maxDepth ∧ IsShaped (inPlural || node.isCount) (depth + 1) body := by
  rcases shaped.of_mem member with ⟨content, rfl, -⟩ | ⟨rfl, -⟩ | clause
  · cases isBody
  · cases isBody
  · exact clause.of_mem_bodies isBody

end Parts

/--
A level of a message: the message itself, or that of a branch somewhere in it. So many clauses with
branches are around it, and one of them goes by a count or none does.
-/
inductive HasLevel (message : Message) : (counted : Bool) → (depth : Nat) → Message → Prop where
  | top : HasLevel message false 0 message
  | inside {counted : Bool} {depth : Nat} {level body : Message} {node : MessageNode}
      (outer : HasLevel message counted depth level) (member : node ∈ level)
      (isBody : body ∈ node.bodies) :
      HasLevel message (counted || node.isCount) (depth + 1) body

/-- A clause names its argument and its currency; what is for all other cases is kept apart. -/
def IsProper : MessageNode → Prop
  | .text _ | .pound => True
  | .argument name _ => IsPlainName name
  | .number name style _ => IsPlainName name ∧ HasCode style
  | .plural name _ _ categories _ => IsPlainName name ∧ ∀ branch ∈ categories, branch.1 ≠ .other
  | .select name cases _ => IsPlainName name ∧ ∀ branch ∈ cases, branch.1 ≠ "other"

/-- What holds of every level of a message that was read. -/
structure IsWellShaped (counted : Bool) (depth : Nat) (level : Message) : Prop where
  depth_le : depth ≤ 32
  nonempty : ∀ content, .text content ∈ level → content ≠ ""
  apart : ∀ front content next back, level ≠ front ++ .text content :: .text next :: back
  counted_of_pound : .pound ∈ level → counted = true
  proper : ∀ node ∈ level, IsProper node

theorem IsShapedClause.isProper {inPlural : Bool} {depth : Nat} {node : MessageNode}
    (shaped : IsShapedClause inPlural depth node) : IsProper node := by
  cases shaped with
  | argument isName => exact isName
  | number isName hasCode => exact ⟨isName, hasCode⟩
  | plural _ isName noOther _ => exact ⟨isName, noOther⟩
  | select _ isName noOther _ => exact ⟨isName, noOther⟩

theorem IsShaped.isWellShaped {counted : Bool} {depth : Nat} {level : Message}
    (shaped : IsShaped counted depth level) (shallow : depth ≤ maxDepth) :
    IsWellShaped counted depth level where
  depth_le := shallow
  nonempty := by
    intro content member
    rcases shaped.of_mem member with ⟨_, ⟨⟩, nonempty⟩ | ⟨⟨⟩, -⟩ | clause
    · exact nonempty
    · cases clause
  apart := shaped.ne_texts
  counted_of_pound := by
    intro member
    rcases shaped.of_mem member with ⟨_, ⟨⟩, -⟩ | ⟨-, counted⟩ | clause
    · exact counted
    · cases clause
  proper := by
    intro node member
    rcases shaped.of_mem member with ⟨content, rfl, -⟩ | ⟨rfl, -⟩ | clause
    · trivial
    · trivial
    · exact clause.isProper

/-- Every level of a message has the shape for its place, and is not too deep. -/
theorem HasLevel.isShaped {message level : Message} {counted : Bool} {depth : Nat}
    (reached : HasLevel message counted depth level) (shaped : IsShaped false 0 message) :
    IsShaped counted depth level ∧ depth ≤ maxDepth := by
  induction reached with
  | top => exact ⟨shaped, Nat.zero_le _⟩
  | inside _ member isBody inductionHypothesis =>
      rcases inductionHypothesis.1.of_mem_bodies member isBody with ⟨shallow, inside⟩
      exact ⟨inside, shallow⟩

/--
Whatever text is read, at every level of the message no text is empty or next to another one, number
signs stand within the branches of a count only, names and codes are there, and what is for all
other cases is kept apart. Clauses with branches are nested at most thirty-two deep.
-/
theorem isWellShaped_of_hasLevel (text : String) {counted : Bool} {depth : Nat} {level : Message}
    (reached : HasLevel (ofText text) counted depth level) : IsWellShaped counted depth level := by
  rcases reached.isShaped (isShaped_ofText text) with ⟨shaped, shallow⟩
  exact shaped.isWellShaped shallow

theorem ofText_malformedInCount :
    ofText "\x7bn, plural, other \x7b\x7b\x7d#\x7d\x7d" =
      [.plural "n" false [] [] [.text "\x7b\x7d", .pound]] := by
  have closing : nodes? true true 1 "\x7d\x7d".toList = some ([], "\x7d\x7d".toList) :=
    nodes?_close
  have sign : nodes? true true 1 "#\x7d\x7d".toList = some ([.pound], "\x7d\x7d".toList) :=
    (nodes?_character (by decide) (by decide)).trans (congrArg _ closing)
  have malformed : clause? true 1 "\x7d#\x7d\x7d".toList = none := clause?_fault (by rfl)
  have split : splitAtClosing 1 "\x7d#\x7d\x7d".toList =
      ("\x7d".toList, "#\x7d\x7d".toList) := by decide
  have body : nodes? true true 1 "\x7b\x7d#\x7d\x7d".toList =
      some ([.text "\x7b\x7d", .pound], "\x7d\x7d".toList) := by
    refine (nodes?_malformed malformed).trans ?_
    rw [split, if_neg (by simp), sign]
    simp [Message.consText]
  have last : branches? .plural true 0 "\x7d".toList = some (([], none), []) :=
    branches?_close (by rfl)
  have selector : branchHead .plural " other \x7b\x7b\x7d#\x7d\x7d".toList =
      .ok (.branch "other", "\x7b\x7d#\x7d\x7d".toList) := by rfl
  have branches : branches? .plural true 0 " other \x7b\x7b\x7d#\x7d\x7d".toList =
      some (([], some [.text "\x7b\x7d", .pound]), []) := by
    rw [branches?_branch selector, body]
    exact congrArg (Option.map _) last
  have head : clauseHead "n, plural, other \x7b\x7b\x7d#\x7d\x7d".toList =
      .ok (.branches "n" .plural, " other \x7b\x7b\x7d#\x7d\x7d".toList) := by rfl
  have clause : clause? false 0 "n, plural, other \x7b\x7b\x7d#\x7d\x7d".toList =
      some (.plural "n" false [] [] [.text "\x7b\x7d", .pound], []) := by
    rw [clause?_branches head, if_neg (by decide)]
    exact congrArg (Option.bind · _) branches
  have read : nodes? false false 0 "\x7bn, plural, other \x7b\x7b\x7d#\x7d\x7d".toList =
      some ([.plural "n" false [] [] [.text "\x7b\x7d", .pound]], []) :=
    (nodes?_clause clause).trans (congrArg _ nodes?_nil)
  rw [nodes?_ofText] at read
  exact congrArg Prod.fst (Option.some.inj read)

/-- A malformed clause within a branch is a text there, before a number sign. -/
theorem isWellShaped_of_hasLevel_malformed :
    HasLevel (ofText "\x7bn, plural, other \x7b\x7b\x7d#\x7d\x7d") true 1
        [.text "\x7b\x7d", .pound] ∧
      IsWellShaped true 1 [.text "\x7b\x7d", .pound] := by
  let count : MessageNode := .plural "n" false [] [] [.text "\x7b\x7d", .pound]
  have member : count ∈ ofText "\x7bn, plural, other \x7b\x7b\x7d#\x7d\x7d" := by
    rw [ofText_malformedInCount]
    exact List.mem_singleton_self count
  have isBody : [.text "\x7b\x7d", .pound] ∈ count.bodies := List.mem_singleton_self _
  have reached := HasLevel.top.inside member isBody
  exact ⟨reached, isWellShaped_of_hasLevel _ reached⟩

end Message

end LocalizedText
