import LocalizedText.Proofs.Message.Composition
import LocalizedText.Proofs.Template

/-!
# The slices of a text

Reading a text loses nothing and repeats nothing. Each part of the message stands for a slice of the
text, and the slices follow one another without gap or overlap: a run of text and the clause of an
argument or a number for exactly their characters, and a clause with branches for what stands from
its opening brace up to the brace that matches it.

All reading functions take a front of what they are given, whether or not the braces in it come out
even. It is enough to know from how many open braces to how many each of them goes, as fronts that
follow one another go from the first number to the last.
-/

namespace LocalizedText

namespace Message

/--
A rest is left of an input after a front that goes from some open braces to others: what closes the
latter closes the former with the front before it.
-/
def Takes (opened left : Nat) (input rest : List Char) : Prop :=
  ∃ front, front ++ rest = input ∧
    ∀ depth after, Closes (depth + left) after → Closes (depth + opened) (front ++ after)

section Takes

variable {opened between left : Nat} {character : Char} {input middle rest : List Char}

theorem Takes.refl (opened : Nat) (input : List Char) : Takes opened opened input input :=
  ⟨[], rfl, fun _ _ closes => closes⟩

theorem Takes.trans (first : Takes opened between input middle)
    (second : Takes between left middle rest) : Takes opened left input rest := by
  rcases first with ⟨front, rfl, enters⟩
  rcases second with ⟨back, rfl, goesOn⟩
  refine ⟨front ++ back, List.append_assoc front back rest, ?_⟩
  intro depth after closes
  rw [List.append_assoc]
  exact enters depth _ (goesOn depth after closes)

/-- More open braces around make no difference. -/
theorem Takes.inside (around : Nat) (takes : Takes opened left input rest) :
    Takes (around + opened) (around + left) input rest := by
  rcases takes with ⟨front, whole, goesOn⟩
  refine ⟨front, whole, ?_⟩
  intro depth after closes
  rw [← Nat.add_assoc] at closes ⊢
  exact goesOn (depth + around) after closes

theorem takes_open : Takes 1 2 ('\x7b' :: rest) rest :=
  ⟨['\x7b'], rfl, fun _ _ closes => .opening closes⟩

theorem takes_close : Takes 1 0 ('\x7d' :: rest) rest :=
  ⟨['\x7d'], rfl, fun _ _ closes => .closing closes⟩

theorem takes_other (noOpen : character ≠ '\x7b') (noClose : character ≠ '\x7d') :
    Takes 1 1 (character :: rest) rest :=
  ⟨[character], rfl, fun _ _ closes => .other noOpen noClose closes⟩

theorem takes_comma : Takes 1 1 (',' :: rest) rest :=
  takes_other (by simp) (by simp)

/-- Characters that are no braces close none. -/
theorem takes_dropWhile (property : Char → Bool) (noOpen : property '\x7b' = false)
    (noClose : property '\x7d' = false) (input : List Char) :
    Takes 1 1 input (input.dropWhile property) := by
  induction input with
  | nil => exact .refl 1 []
  | cons character rest inductionHypothesis =>
      cases holds : property character with
      | false =>
          simp only [List.dropWhile_cons, holds]
          exact .refl 1 _
      | true =>
          simp only [List.dropWhile_cons, holds]
          apply Takes.trans (takes_other _ _) inductionHypothesis
          · rintro rfl
            simp [noOpen] at holds
          · rintro rfl
            simp [noClose] at holds

theorem takes_skipBlank (input : List Char) : Takes 1 1 input (Text.skipBlank input) :=
  takes_dropWhile Text.isAsciiBlank rfl rfl input

/-- A word is taken with the blanks around it. -/
theorem takes_word (stops : List Char) (noOpen : isWordChar stops '\x7b' = false)
    (noClose : isWordChar stops '\x7d' = false) (input : List Char) :
    Takes 1 1 input (Text.skipBlank (afterWord stops (Text.skipBlank input))) :=
  (takes_skipBlank input).trans
    ((takes_dropWhile (isWordChar stops) noOpen noClose _).trans (takes_skipBlank _))

/-- The scan for a closing brace takes a text up to this brace, unless it is missing. -/
theorem takes_splitAtClosing {depth : Nat} {input : List Char}
    (found : (splitAtClosing (depth + 1) input).2 ≠ []) :
    Takes (depth + 1) 0 input (splitAtClosing (depth + 1) input).2 := by
  induction input generalizing depth with
  | nil => exact absurd rfl found
  | cons character rest inductionHypothesis =>
      by_cases opens : character = '\x7b'
      · subst opens
        have split : (splitAtClosing (depth + 1) ('\x7b' :: rest)).2 =
            (splitAtClosing (depth + 1 + 1) rest).2 := by
          simp [splitAtClosing]
        rw [split] at found ⊢
        exact (takes_open.inside depth).trans (inductionHypothesis found)
      · by_cases closes : character = '\x7d'
        · subst closes
          cases depth with
          | zero =>
              have split : (splitAtClosing 1 ('\x7d' :: rest)).2 = rest := by
                simp [splitAtClosing]
              rw [split]
              exact takes_close
          | succ depth =>
              have split : (splitAtClosing (depth + 1 + 1) ('\x7d' :: rest)).2 =
                  (splitAtClosing (depth + 1) rest).2 := by
                simp [splitAtClosing]
              rw [split] at found ⊢
              exact (takes_close.inside (depth + 1)).trans (inductionHypothesis found)
        · have split : (splitAtClosing (depth + 1) (character :: rest)).2 =
              (splitAtClosing (depth + 1) rest).2 := by
            simp [splitAtClosing, opens, closes]
          rw [split] at found ⊢
          exact ((takes_other opens closes).inside depth).trans (inductionHypothesis found)

end Takes

section Heads

variable {input rest : List Char}

/-- The braces of a clause that its head leaves open. -/
def headLeft : ClauseHead → Nat
  | .branches _ _ => 1
  | _ => 0

/-- The braces of a clause that are open after what comes next among its branches. -/
def branchLeft : BranchHead → Nat
  | .close => 0
  | .branch _ => 2

theorem takes_closeHead {head found : ClauseHead}
    (read : closeHead head input = .ok (found, rest)) : found = head ∧ Takes 1 0 input rest := by
  unfold closeHead at read
  split at read
  · cases read
    exact ⟨rfl, takes_close⟩
  · cases read

theorem takes_numberHead {name : String} {found : ClauseHead}
    (read : numberHead name input = .ok (found, rest)) :
    Takes 1 (headLeft found) input rest := by
  unfold numberHead at read
  split at read
  · next tail =>
      simp only at read
      split at read
      · cases read
      · rcases takes_closeHead read with ⟨rfl, closes⟩
        exact takes_comma.trans ((takes_word braces rfl rfl tail).trans closes)
  · rcases takes_closeHead read with ⟨rfl, closes⟩
    exact closes

theorem takes_keywordHead {name : String} {found : ClauseHead}
    (read : keywordHead name input = .ok (found, rest)) :
    Takes 1 (headLeft found) input rest := by
  have worded := takes_word keywordStops rfl rfl input
  unfold keywordHead at read
  simp only at read
  split at read
  · exact worded.trans (takes_numberHead read)
  · split at read
    · next follows =>
        cases read
        rw [follows] at worded
        exact worded.trans takes_comma
    · cases read

/-- The head of a clause closes it, or leaves its brace open before the branches. -/
theorem takes_clauseHead {found : ClauseHead} (read : clauseHead input = .ok (found, rest)) :
    Takes 1 (headLeft found) input rest := by
  have worded := takes_word nameStops rfl rfl input
  unfold clauseHead at read
  simp only at read
  split at read
  · cases read
  · split at read
    · next follows =>
        cases read
        rw [follows] at worded
        exact worded.trans takes_close
    · next follows =>
        rw [follows] at worded
        exact worded.trans (takes_comma.trans (takes_keywordHead read))
    · cases read

theorem takes_branchHead {kind : BranchKind} {found : BranchHead}
    (read : branchHead kind input = .ok (found, rest)) :
    Takes 1 (branchLeft found) input rest := by
  have skipped := takes_skipBlank input
  have worded := takes_word braces rfl rfl input
  unfold branchHead at read
  split at read
  · cases read
  · next follows =>
      cases read
      rw [follows] at skipped
      exact skipped.trans takes_close
  · simp only at read
    split at read
    · cases read
    · split at read
      · next follows =>
          cases read
          rw [follows] at worded
          exact worded.trans takes_open
      · cases read

end Heads

-- The induction is on how a text was read. Only the message of a branch is left with the brace open
-- that was open before it, so the message is within a branch throughout.
mutual

/-- The message of a branch is taken without closing its brace. -/
theorem Derives.takes : ∀ {inBranch inPlural : Bool} {depth : Nat} {input rest : List Char}
    {message : Message}, Derives inBranch inPlural depth input message rest →
    inBranch = true → Takes 1 1 input rest
  | _, _, _, _, _, _, .nil => nofun
  | _, _, _, _, _, _, .close rest => fun _ => .refl 1 _
  | _, _, _, _, _, _, .character noClause noClose following => by
      intro inside
      have noBrace := fun closes => noClose ⟨closes, inside⟩
      exact (takes_other noClause noBrace).trans (following.takes inside)
  | _, _, _, _, _, _, .clause clause following => by
      intro inside
      exact takes_open.trans ((clause.takes.inside 1).trans (following.takes inside))
  | _, _, _, _, _, _, .malformed malformed goesOn following => by
      -- A clause that is kept as text ends at the same brace as one that is read would.
      intro inside
      have kept := (takes_splitAtClosing (goesOn inside)).inside 1
      exact takes_open.trans (kept.trans (following.takes inside))

/-- A clause is taken up to the brace that matches its opening one. -/
theorem DerivesClause.takes : ∀ {inPlural : Bool} {depth : Nat} {input rest : List Char}
    {node : MessageNode}, DerivesClause inPlural depth input node rest → Takes 1 0 input rest
  | _, _, _, _, _, .argument head => takes_clauseHead head
  | _, _, _, _, _, .number head => takes_clauseHead head
  | _, _, _, _, _, .branches _ head inside _ =>
      (takes_clauseHead head).trans inside.takes

/-- Branches are taken up to the brace that closes their clause. -/
theorem DerivesBranches.takes : ∀ {kind : BranchKind} {inPlural : Bool} {depth : Nat}
    {input rest : List Char} {branches : List (String × Message) × Option Message},
    DerivesBranches kind inPlural depth input branches rest → Takes 1 0 input rest
  | _, _, _, _, _, _, .close head => takes_branchHead head
  | _, _, _, _, _, _, .branch head inside others => by
      -- From one open brace to two, along the message, back to one, and to none at the end.
      have body := (inside.takes rfl).inside 1
      exact (takes_branchHead head).trans (body.trans ((takes_close.inside 1).trans others.takes))

end

/--
A part of a message stands for a slice of the text that it was read from. A number sign that stands
for a number is never read outside of branches and so has no slice of its own.
-/
def Spans : MessageNode → String → Prop
  | .text content, slice => slice = content
  | .argument _ source, slice => slice = source
  | .number _ _ source, slice => slice = source
  | .pound, _ => False
  | .plural .., slice | .select .., slice =>
      ∃ inside, slice.toList = '\x7b' :: (inside ++ ['\x7d']) ∧ Closes 1 (inside ++ ['\x7d'])

/-- The last brace that a text closes is its last character. -/
theorem Closes.exists_concat {depth : Nat} {text : List Char} (closes : Closes (depth + 1) text) :
    ∃ inside, text = inside ++ ['\x7d'] := by
  generalize total : depth + 1 = count at closes
  induction closes generalizing depth with
  | nil => cases total
  | opening inside inductionHypothesis =>
      rcases inductionHypothesis rfl with ⟨front, rfl⟩
      exact ⟨'\x7b' :: front, rfl⟩
  | @closing count rest outside inductionHypothesis =>
      cases count with
      | zero =>
          cases outside
          exact ⟨[], rfl⟩
      | succ count =>
          rcases inductionHypothesis rfl with ⟨front, rfl⟩
          exact ⟨'\x7d' :: front, rfl⟩
  | @other _ character _ noOpen noClose inside inductionHypothesis =>
      rcases inductionHypothesis rfl with ⟨front, rfl⟩
      exact ⟨character :: front, rfl⟩

theorem spans_of_isBranching {node : MessageNode} {inside : List Char}
    (branching : isBranching node = true) (closes : Closes 1 inside) :
    Spans node (String.ofList ('\x7b' :: inside)) := by
  rcases closes.exists_concat with ⟨front, rfl⟩
  cases node with
  | plural | select => exact ⟨front, String.toList_ofList, closes⟩
  | text | argument | pound | number => cases branching

/-- A clause stands for its source, which is what it was read from. -/
theorem DerivesClause.spans {inPlural : Bool} {depth : Nat} {input rest : List Char}
    {node : MessageNode} (derives : DerivesClause inPlural depth input node rest) :
    Spans node (clauseSource input rest) ∧ consumed input rest ++ rest = input := by
  rcases derives.takes with ⟨front, rfl, closes⟩
  -- The source of a clause is the front that was taken, whatever kind of clause it is.
  have source : consumed (front ++ rest) rest = front := by simp [consumed]
  refine ⟨?_, by rw [source]⟩
  cases derives with
  | argument head => rfl
  | number head => rfl
  | branches shallow head inside closed =>
      unfold clauseSource
      rw [source]
      apply spans_of_isBranching (closeClause_eq_some closed).1
      simpa using closes 0 [] .nil

/-- A text in front of a message is a slice in front, or goes into the first one. -/
theorem exists_slices_consText (character : Char) (content : List Char) {message : Message}
    {slices : List String} (spans : List.Forall₂ Spans message slices) :
    ∃ further,
      String.join further = String.ofList (character :: content) ++ String.join slices ∧
        List.Forall₂ Spans (consText (character :: content) message) further := by
  simp only [consText, List.isEmpty_cons, Bool.false_eq_true, if_false]
  split
  · rcases spans with _ | ⟨rfl, following⟩
    refine ⟨_, ?_, .cons rfl following⟩
    simp only [String.join_cons, String.append_assoc]
  · exact ⟨String.ofList (character :: content) :: slices, String.join_cons, .cons rfl spans⟩

/-- Outside of branches, the parts of a message stand for slices that make up the text. -/
theorem Derives.exists_slices : ∀ {inBranch inPlural : Bool} {depth : Nat} {input rest : List Char}
    {message : Message}, Derives inBranch inPlural depth input message rest →
    inBranch = false → inPlural = false →
      ∃ slices, String.join slices = String.ofList input ∧ List.Forall₂ Spans message slices
  | _, _, _, _, _, _, .nil => fun _ _ => ⟨[], rfl, .nil⟩
  | _, _, _, _, _, _, .close rest => nofun
  | _, _, _, _, _, _, @Derives.character _ inPlural _ first _ _ message _ _ following => by
      intro outside uncounted
      rcases following.exists_slices outside uncounted with ⟨slices, whole, spans⟩
      have isText : consCharacter inPlural first message = consText [first] message := by
        simp [consCharacter, uncounted]
      rcases exists_slices_consText first [] spans with ⟨further, joined, spansFurther⟩
      refine ⟨further, ?_, isText ▸ spansFurther⟩
      rw [joined, whole, ← String.ofList_append]
      rfl
  | _, _, _, _, _, _, @Derives.clause _ _ _ _ tail left _ _ first following => by
      intro outside uncounted
      rcases following.exists_slices outside uncounted with ⟨slices, whole, spans⟩
      rcases first.spans with ⟨span, source⟩
      refine ⟨clauseSource tail left :: slices, ?_, .cons span spans⟩
      rw [String.join_cons, whole, clauseSource, ← String.ofList_append, List.cons_append, source]
  | _, _, _, _, _, _, @Derives.malformed _ _ _ tail _ _ _ _ following => by
      intro outside uncounted
      rcases following.exists_slices outside uncounted with ⟨slices, whole, spans⟩
      rcases exists_slices_consText '\x7b' (splitAtClosing 1 tail).1 spans with
        ⟨further, joined, spansFurther⟩
      refine ⟨further, ?_, spansFurther⟩
      rw [joined, whole, ← String.ofList_append, List.cons_append, splitAtClosing_append]

end Message

namespace MessageScope

variable {scope : MessageScope}

/-- Without parameters a part that is no clause with branches adds its slice. -/
theorem text_addNode_of_spans (none : scope.parameters = []) (output : MessageOutput)
    {node : MessageNode} {slice : String} (spans : Message.Spans node slice)
    (plain : Message.isBranching node = false) :
    (scope.addNode output node).text = output.text.map (· ++ slice) := by
  cases node with
  | text content =>
      cases spans
      rfl
  | argument name source =>
      cases spans
      have unresolved : Template.resolve? scope.parameters name.toList = Option.none := by
        simp [Template.resolve?, none, Parameters.lookupPath?_nil]
      simp only [addNode, unresolved]
      rfl
  | pound => cases spans
  | number name style source =>
      cases spans
      have noNumber : scope.number? name = Option.none := by
        simp [number?, lookup?, none, Parameters.lookupPath?_nil]
      simp only [addNode, noNumber]
      rfl
  | plural | select => cases plain

theorem text_addNodes_of_spans (none : scope.parameters = []) {message : Message}
    {slices : List String} (spans : List.Forall₂ Message.Spans message slices)
    (plain : ∀ node ∈ message, Message.isBranching node = false) {output : MessageOutput}
    {before : String} (goesOn : output.text = some before) :
    (scope.addNodes output message).text = some (before ++ String.join slices) := by
  induction spans generalizing output before with
  | nil => simp [addNodes, goesOn]
  | @cons node slice _ _ span following inductionHypothesis =>
      rcases List.forall_mem_cons.mp plain with ⟨first, others⟩
      have added : (scope.addNode output node).text = some (before ++ slice) := by
        rw [text_addNode_of_spans none output span first, goesOn, Option.map_some]
      rw [addNodes_cons goesOn, inductionHypothesis others added, String.join_cons,
        String.append_assoc]

end MessageScope

namespace MessageFormatter

/--
The parts of a message stand for slices that follow one another and make up the text. So a text that
is read without a clause with branches is formatted as it is when there are no parameters, whatever
the formatters have done before and whatever the locale.
-/
theorem slices_of_ofText (native : Bool) (planCapacity capacity : Nat) (rules : PluralRules)
    (calls : List MessageFormatterCall) (text : String) :
    let numbers : NumberFormatter := if native then .ofCapacity planCapacity else .manual
    let formatter := calls.foldl perform (ofParts numbers rules capacity)
    (∃ slices, String.join slices = text ∧
        List.Forall₂ Message.Spans (Message.ofText text) slices) ∧
      ((∀ node ∈ Message.ofText text, Message.isBranching node = false) →
        ∀ locale, (formatter.format text [] locale).1 = some text) := by
  intro numbers formatter
  have numbersFaithful : numbers.IsFaithful native := by
    cases native
    · exact NumberFormatter.isFaithful_manual
    · exact NumberFormatter.isFaithful_ofCapacity planCapacity
  have faithful : formatter.IsFaithful native rules :=
    (isFaithful_ofParts numbersFaithful rules capacity).foldl_perform calls
  rcases (Message.derives_ofText text).exists_slices rfl rfl with ⟨slices, whole, spans⟩
  rw [String.ofList_toList] at whole
  refine ⟨⟨slices, whole, spans⟩, ?_⟩
  intro plain locale
  let start : MessageOutput := ⟨some "", formatter.numbers, formatter.ordinals, []⟩
  rw [faithful.format_text (rfl : start.text = some "") faithful.numbers faithful.ordinals,
    MessageScope.text_addNodes_of_spans rfl spans plain rfl, whole, String.empty_append]

/-- A malformed clause is text, and so is a number sign outside of branches. -/
theorem slices_of_ofText_malformed :
    let text := "\x7bn, list\x7d#\x7bn\x7d"
    let formatter := ofParts default {} usualCapacity
    (∃ slices, String.join slices = text ∧
        List.Forall₂ Message.Spans (Message.ofText text) slices) ∧
      (∀ node ∈ Message.ofText text, Message.isBranching node = false) ∧
      ∀ locale, (formatter.format text [] locale).1 = some text := by
  intro text formatter
  have argument : Message.clause? false 0 "n\x7d".toList =
      some (.argument "n" "\x7bn\x7d", []) :=
    (Message.clause?_argument (by rfl)).trans (by rfl)
  have clause : Message.nodes? false false 0 "\x7bn\x7d".toList =
      some ([.argument "n" "\x7bn\x7d"], []) :=
    (Message.nodes?_clause argument).trans (congrArg _ Message.nodes?_nil)
  have sign : Message.nodes? false false 0 "#\x7bn\x7d".toList =
      some ([.text "#", .argument "n" "\x7bn\x7d"], []) :=
    (Message.nodes?_character (by decide) (by decide)).trans (congrArg _ clause)
  have unknown : Message.clause? false 0 "n, list\x7d#\x7bn\x7d".toList = none :=
    Message.clause?_fault (by rfl)
  have split : Message.splitAtClosing 1 "n, list\x7d#\x7bn\x7d".toList =
      ("n, list\x7d".toList, "#\x7bn\x7d".toList) := by decide
  have characters : text.toList = '\x7b' :: "n, list\x7d#\x7bn\x7d".toList := by decide
  have read : Message.nodes? false false 0 text.toList =
      some ([.text "\x7bn, list\x7d#", .argument "n" "\x7bn\x7d"], []) := by
    rw [characters, Message.nodes?_malformed unknown, split, if_neg (by simp), sign]
    simp [Message.consText]
  have plain : ∀ node ∈ Message.ofText text, Message.isBranching node = false := by
    rw [Message.nodes?_ofText] at read
    have message : Message.ofText text = _ := congrArg Prod.fst (Option.some.inj read)
    simp [message, Message.isBranching]
  have slices := slices_of_ofText true NumberFormatter.usualCapacity usualCapacity {} [] text
  exact ⟨slices.1, plain, slices.2 plain⟩

end MessageFormatter

end LocalizedText
