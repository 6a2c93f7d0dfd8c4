import LocalizedText.Proofs.Message.ClauseEnd

/-!
# Scanning a message by its bytes

A message can be scanned without taking its text apart: with a place among the bytes that only ever
moves on, slices of the text between two places, and a jump to the end of a malformed clause. The
scan of a message and the scan of branches each repeat a turn, and call each other in it.

Nothing in this promises a result. A slice may have an end within a character, a count of braces may
go below zero, and the turns, after one another or within one another, may be more than there is
fuel for. Each of these is an absent result here, so that a scan with a result has met none of them.
What a turn does promise is that the next one starts at a later place.
-/

namespace LocalizedText

namespace Message

/-- What a scan comes to, if to anything: a fault, or a value and the place after it. -/
abbrev Scanned (α : Type) := Except MessageFault (α × Nat)

/-- The branches of a clause, apart from the one for all other cases. -/
abbrev Branches := List (String × Message) × Option Message

/-- What a turn of a loop comes to: the result, or a state for the next turn. -/
inductive Turn (σ ρ : Type) where
  | done (result : ρ)
  | again (next : σ)

/-- The state of a scan of a message. Text from its start up to the place is still to be added. -/
structure BodyState where
  nodes : Message
  textStart : Nat
  position : Nat

/-- The state of a scan of branches. -/
structure BranchState where
  branches : List (String × Message)
  other : Option Message
  position : Nat

/-- The state after a branch; the last one for all other cases counts. -/
def BranchState.add (state : BranchState) (selector : String) (body : Message) (position : Nat) :
    BranchState :=
  if selector = "other" then ⟨state.branches, some body, position⟩
  else ⟨state.branches ++ [(selector, body)], state.other, position⟩

@[simp]
theorem BranchState.position_add (state : BranchState) (selector : String) (body : Message)
    (position : Nat) : (state.add selector body position).position = position := by
  unfold BranchState.add
  split <;> rfl

/-- A message with a text at its end, unless this is empty. -/
def pushText (nodes : Message) (text : List Char) : Message :=
  if text.isEmpty then nodes else nodes ++ [.text (String.ofList text)]

/-- A part in front of a message, to whose first text a text is joined. -/
def consNode (node : MessageNode) (message : Message) : Message :=
  match node with
  | .text content => consText content.toList message
  | node => node :: message

/-- A message in which texts that follow one another are joined. -/
def joinTexts (nodes : Message) : Message :=
  nodes.foldr consNode []

/-- A blank of ASCII. -/
def isBlankByte (byte : UInt8) : Bool :=
  byte == 0x20 || byte == 0x09 || byte == 0x0a || byte == 0x0c || byte == 0x0d

/-- A byte that is neither a blank nor a byte of one of the stops. -/
def isWordByte (stops : List Char) (byte : UInt8) : Bool :=
  !isBlankByte byte && !(Text.utf8 stops).contains byte

/--
How many bytes there are up to the one that closes the outermost brace, with this one, if it is
there. There is no result when more braces close than are open.
-/
def closingLengthWithin? (depth : Nat) : List UInt8 → Option (Option Nat)
  | [] => some none
  | byte :: rest =>
      if byte = 0x7b then (closingLengthWithin? (depth + 1) rest).map (·.map (· + 1))
      else if byte = 0x7d then
        match depth with
        | 0 => none
        | 1 => some (some 1)
        | depth + 2 => (closingLengthWithin? (depth + 1) rest).map (·.map (· + 1))
      else (closingLengthWithin? depth rest).map (·.map (· + 1))

/-- The place after the clause whose opening brace is at a place, or the end of the bytes. -/
def matchingBraceWithin? (bytes : List UInt8) (start : Nat) : Option Nat :=
  (closingLengthWithin? 0 (bytes.drop start)).map fun
    | some length => start + length
    | none => bytes.length

section Scan

variable (source : List Char)

def skipBlanks (position : Nat) : Nat :=
  Text.skipBytes source isBlankByte position

/-- The word at a place, and the place after it. -/
def scanWord? (stops : List Char) (position : Nat) : Option (List Char × Nat) :=
  let stop := Text.skipBytes source (isWordByte stops) position
  (Text.slice? source position stop).map fun word => (word, stop)

def scanClose (head : ClauseHead) (position : Nat) : Scanned ClauseHead :=
  if Text.byteAt? source position = some 0x7d then .ok (head, position + 1) else .error .unclosed

def scanNumber? (name : String) (position : Nat) : Option (Scanned ClauseHead) :=
  if Text.byteAt? source position = some 0x2c then do
    let (word, stop) ← scanWord? source braces (skipBlanks source (position + 1))
    match numberStyle? word with
    | none => some (.error .unknownStyle)
    | some style => some (scanClose source (.number name style) (skipBlanks source stop))
  else some (scanClose source (.number name .standard) position)

def scanKeyword? (name : String) (position : Nat) : Option (Scanned ClauseHead) := do
  let (keyword, stop) ← scanWord? source keywordStops (skipBlanks source position)
  let position := skipBlanks source stop
  if keyword = "number".toList then scanNumber? source name position
  else
    match branchKind? keyword with
    | none => some (.error .unknownKeyword)
    | some kind =>
        if Text.byteAt? source position = some 0x2c then
          some (.ok (.branches name kind, position + 1))
        else some (.error .unknownKeyword)

/-- The head of a clause, from behind its opening brace. -/
def scanHead? (position : Nat) : Option (Scanned ClauseHead) := do
  let (name, stop) ← scanWord? source nameStops (skipBlanks source position)
  let position := skipBlanks source stop
  if name.isEmpty then some (.error .badName)
  else if Text.byteAt? source position = some 0x7d then
    some (.ok (.argument (String.ofList name), position + 1))
  else if Text.byteAt? source position = some 0x2c then
    scanKeyword? source (String.ofList name) (position + 1)
  else some (.error .badName)

/-- What comes next among the branches of a clause. -/
def scanBranchHead? (kind : BranchKind) (position : Nat) : Option (Scanned BranchHead) :=
  let position := skipBlanks source position
  match Text.byteAt? source position with
  | none => some (.error .unclosed)
  | some byte =>
      if byte = 0x7d then some (.ok (.close, position + 1))
      else do
        let (selector, stop) ← scanWord? source braces position
        let position := skipBlanks source stop
        if selector.isEmpty || !isSelector kind selector then some (.error .badSelector)
        else if Text.byteAt? source position = some 0x7b then
          some (.ok (.branch (String.ofList selector), position + 1))
        else some (.error .badSelector)

/--
A turn of the scan of a message: a byte of its text, a number sign, or a clause. How a clause is
scanned from its opening brace on is given.
-/
def bodyTurn? (clause : Nat → Option (Scanned MessageNode)) (inBranch inPlural : Bool)
    (state : BodyState) : Option (Turn BodyState (Scanned Message)) :=
  match Text.byteAt? source state.position with
  | none =>
      if inBranch then some (.done (.error .unclosed))
      else do
        let run ← Text.slice? source state.textStart state.position
        some (.done (.ok (pushText state.nodes run, state.position)))
  | some byte =>
      if byte = 0x7d ∧ inBranch = true then do
        let run ← Text.slice? source state.textStart state.position
        some (.done (.ok (pushText state.nodes run, state.position)))
      else if byte = 0x7b then do
        let run ← Text.slice? source state.textStart state.position
        let nodes := pushText state.nodes run
        match ← clause state.position with
        | .ok (node, stop) => some (.again ⟨nodes ++ [node], stop, stop⟩)
        | .error _ =>
            let stop ← matchingBraceWithin? (Text.utf8 source) state.position
            let kept ← Text.slice? source state.position stop
            if stop = Text.byteLength source ∧ inBranch = true then
              some (.done (.error .unclosed))
            else some (.again ⟨pushText nodes kept, stop, stop⟩)
      else if byte = 0x23 ∧ inPlural = true then do
        let run ← Text.slice? source state.textStart state.position
        some (.again ⟨pushText state.nodes run ++ [.pound], state.position + 1,
          state.position + 1⟩)
      else some (.again { state with position := state.position + 1 })

/--
A turn of the scan of branches: a selector with its message, or the end. How the message is scanned
from behind its opening brace on is given.
-/
def branchTurn? (body : Nat → Option (Scanned Message)) (kind : BranchKind)
    (state : BranchState) : Option (Turn BranchState (Scanned Branches)) := do
  match ← scanBranchHead? source kind state.position with
  | .error fault => some (.done (.error fault))
  | .ok (.close, stop) => some (.done (.ok ((state.branches, state.other), stop)))
  | .ok (.branch selector, start) =>
      match ← body start with
      | .error fault => some (.done (.error fault))
      | .ok (nodes, stop) =>
          if Text.byteAt? source stop = some 0x7d then
            some (.again (state.add selector (joinTexts nodes) (stop + 1)))
          else some (.done (.error .unclosed))

/-- The clause of a head and of the branches after it. -/
def closeScanned (name : String) (kind : BranchKind) : Scanned Branches → Scanned MessageNode
  | .error fault => .error fault
  | .ok ((_, none), _) => .error .missingOther
  | .ok ((branches, some other), stop) =>
      (branchesNode name kind branches other).map fun node => (node, stop)

/-- The clause whose opening brace is at a place. How its branches are scanned is given. -/
def clauseAt? (branches : BranchKind → Nat → Option (Scanned Branches)) (depth position : Nat) :
    Option (Scanned MessageNode) := do
  match ← scanHead? source (position + 1) with
  | .error fault => some (.error fault)
  | .ok (.argument name, stop) =>
      let text ← Text.slice? source position stop
      some (.ok (.argument name (String.ofList text), stop))
  | .ok (.number name style, stop) =>
      let text ← Text.slice? source position stop
      some (.ok (.number name style (String.ofList text), stop))
  | .ok (.branches name kind, stop) =>
      if maxDepth ≤ depth then some (.error .tooDeep)
      else (branches kind stop).map (closeScanned name kind)

mutual

/-- The parts of a message and the place after it, with so much fuel for turns. -/
def scanBody? (fuel : Nat) (inBranch inPlural : Bool) (depth : Nat) (state : BodyState) :
    Option (Scanned Message) :=
  match fuel with
  | 0 => none
  | fuel + 1 => do
      match ← bodyTurn? source (scanClause? fuel inPlural depth) inBranch inPlural state with
      | .done result => some result
      | .again next => scanBody? fuel inBranch inPlural depth next
termination_by structural fuel

/-- The clause whose opening brace is at a place, and the place after it. -/
def scanClause? (fuel : Nat) (inPlural : Bool) (depth position : Nat) :
    Option (Scanned MessageNode) :=
  match fuel with
  | 0 => none
  | fuel + 1 =>
      clauseAt? source
        (fun kind start =>
          scanBranches? fuel kind (inPlural || kind != .select) depth ⟨[], none, start⟩)
        depth position
termination_by structural fuel

/-- The branches of a clause and the place after the brace that closes it. -/
def scanBranches? (fuel : Nat) (kind : BranchKind) (inPlural : Bool) (depth : Nat)
    (state : BranchState) : Option (Scanned Branches) :=
  match fuel with
  | 0 => none
  | fuel + 1 => do
      let body start := scanBody? fuel true inPlural (depth + 1) ⟨[], start, start⟩
      match ← branchTurn? source body kind state with
      | .done result => some result
      | .again next => scanBranches? fuel kind inPlural depth next
termination_by structural fuel

end

end Scan

/-- The message that a text is scanned as; the text itself should the scan end in a fault. -/
def scan? (fuel : Nat) (text : String) : Option Message := do
  match ← scanBody? text.toList fuel false false 0 ⟨[], 0, 0⟩ with
  | .ok (nodes, _) => some (joinTexts nodes)
  | .error _ => some [.text text]

section Progress

variable {source : List Char} {position stop : Nat}

theorem le_skipBlanks (source : List Char) (position : Nat) :
    position ≤ skipBlanks source position :=
  Text.le_skipBytes source isBlankByte position

theorem le_of_scanWord? {stops word : List Char}
    (scanned : scanWord? source stops position = some (word, stop)) : position ≤ stop := by
  rcases Option.map_eq_some_iff.mp scanned with ⟨_, _, ⟨⟩⟩
  exact Text.le_skipBytes source _ position

theorem lt_of_scanClose {head found : ClauseHead}
    (scanned : scanClose source head position = .ok (found, stop)) : position < stop := by
  unfold scanClose at scanned
  split at scanned
  · cases scanned
    exact Nat.lt_succ_self position
  · cases scanned

theorem lt_of_scanNumber? {name : String} {found : ClauseHead}
    (scanned : scanNumber? source name position = some (.ok (found, stop))) : position < stop := by
  unfold scanNumber? at scanned
  split at scanned
  · rcases Option.bind_eq_some_iff.mp scanned with ⟨⟨word, ending⟩, worded, goesOn⟩
    have started := le_skipBlanks source (position + 1)
    have past := le_of_scanWord? worded
    have skipped := le_skipBlanks source ending
    simp only at goesOn
    split at goesOn
    · cases goesOn
    · have closed := lt_of_scanClose (Option.some.inj goesOn)
      omega
  · exact lt_of_scanClose (Option.some.inj scanned)

theorem lt_of_scanKeyword? {name : String} {found : ClauseHead}
    (scanned : scanKeyword? source name position = some (.ok (found, stop))) :
    position < stop := by
  rcases Option.bind_eq_some_iff.mp scanned with ⟨⟨keyword, ending⟩, worded, goesOn⟩
  have started := le_skipBlanks source position
  have past := le_of_scanWord? worded
  have skipped := le_skipBlanks source ending
  simp only at goesOn
  split at goesOn
  · have further := lt_of_scanNumber? goesOn
    omega
  · split at goesOn
    · cases goesOn
    · split at goesOn
      · cases goesOn
        omega
      · cases goesOn

theorem lt_of_scanHead? {found : ClauseHead}
    (scanned : scanHead? source position = some (.ok (found, stop))) : position < stop := by
  rcases Option.bind_eq_some_iff.mp scanned with ⟨⟨name, ending⟩, worded, goesOn⟩
  have started := le_skipBlanks source position
  have past := le_of_scanWord? worded
  have skipped := le_skipBlanks source ending
  simp only at goesOn
  split at goesOn
  · cases goesOn
  · split at goesOn
    · cases goesOn
      omega
    · split at goesOn
      · have further := lt_of_scanKeyword? goesOn
        omega
      · cases goesOn

theorem lt_of_scanBranchHead? {kind : BranchKind} {found : BranchHead}
    (scanned : scanBranchHead? source kind position = some (.ok (found, stop))) :
    position < stop := by
  have started := le_skipBlanks source position
  unfold scanBranchHead? at scanned
  simp only at scanned
  split at scanned
  · cases scanned
  · split at scanned
    · cases scanned
      omega
    · rcases Option.bind_eq_some_iff.mp scanned with ⟨⟨selector, ending⟩, worded, goesOn⟩
      have past := le_of_scanWord? worded
      have skipped := le_skipBlanks source ending
      simp only at goesOn
      split at goesOn
      · cases goesOn
      · split at goesOn
        · cases goesOn
          omega
        · cases goesOn

theorem pos_of_closingLengthWithin? {depth length : Nat} {bytes : List UInt8}
    (counted : closingLengthWithin? depth bytes = some (some length)) : 0 < length := by
  have later : ∀ {counts : Option (Option Nat)},
      counts.map (·.map (· + 1)) = some (some length) → 0 < length := by
    intro counts found
    rcases Option.map_eq_some_iff.mp found with ⟨count, _, one⟩
    rcases Option.map_eq_some_iff.mp one with ⟨before, _, rfl⟩
    exact Nat.succ_pos before
  cases bytes with
  | nil => cases counted
  | cons byte rest =>
      unfold closingLengthWithin? at counted
      split at counted
      · exact later counted
      · split at counted
        · split at counted
          · cases counted
          · cases counted
            exact Nat.one_pos
          · exact later counted
        · exact later counted

/-- The end of a clause is behind its opening brace. -/
theorem lt_of_matchingBraceWithin? {byte : UInt8} (here : Text.byteAt? source position = some byte)
    (found : matchingBraceWithin? (Text.utf8 source) position = some stop) : position < stop := by
  rcases Option.map_eq_some_iff.mp found with ⟨length, counted, rfl⟩
  cases length with
  | none => exact (List.getElem?_eq_some_iff.mp here).1
  | some length =>
      have positive := pos_of_closingLengthWithin? counted
      simp only
      omega

/-- With an open brace, counting goes on to a result. -/
theorem closingLengthWithin?_succ (depth : Nat) (bytes : List UInt8) :
    closingLengthWithin? (depth + 1) bytes = some (closingLength? (depth + 1) bytes) := by
  induction bytes generalizing depth with
  | nil => simp [closingLengthWithin?, closingLength?]
  | cons byte rest inductionHypothesis =>
      unfold closingLengthWithin? closingLength?
      by_cases opens : byte = 0x7b
      · rw [if_pos opens, if_pos opens, inductionHypothesis (depth + 1)]
        rfl
      · by_cases closes : byte = 0x7d
        · rw [if_neg opens, if_neg opens, if_pos closes, if_pos closes]
          cases depth with
          | zero => rfl
          | succ depth =>
              simp only [inductionHypothesis depth, Nat.add_sub_cancel, if_neg (Nat.succ_ne_zero _)]
              rfl
        · rw [if_neg opens, if_neg opens, if_neg closes, if_neg closes, inductionHypothesis depth]
          rfl

/-- From an opening brace on, the count of open braces never goes below zero. -/
theorem matchingBraceWithin?_of_open {bytes : List UInt8} {start : Nat}
    (opens : bytes[start]? = some 0x7b) :
    matchingBraceWithin? bytes start = some (matchingBrace bytes start) := by
  obtain ⟨rest, here⟩ : ∃ rest, bytes.drop start = 0x7b :: rest := by
    rcases List.getElem?_eq_some_iff.mp opens with ⟨bounded, same⟩
    exact ⟨bytes.drop (start + 1), by rw [List.drop_eq_getElem_cons bounded, same]⟩
  have counted : closingLengthWithin? 0 (bytes.drop start) =
      some (closingLength? 0 (bytes.drop start)) := by
    rw [here]
    unfold closingLengthWithin? closingLength?
    rw [if_pos rfl, if_pos rfl, closingLengthWithin?_succ]
    rfl
  rw [matchingBraceWithin?, matchingBrace, counted]
  cases closingLength? 0 (bytes.drop start) <;> rfl

/-- A result that is no fault goes on from a place. -/
def Advances {α : Type} (start : Nat) : Scanned α → Prop
  | .ok (_, stop) => start ≤ stop
  | .error _ => True

/-- A turn that starts at a place is followed by one at a later place, or by such a result. -/
def TurnAdvances {σ α : Type} (place : σ → Nat) (start : Nat) :
    Turn σ (Scanned α) → Prop
  | .again next => start < place next
  | .done result => Advances start result

theorem Advances.mono {α : Type} {start earlier : Nat} {result : Scanned α}
    (advances : Advances start result) (ordered : earlier ≤ start) : Advances earlier result := by
  cases result with
  | error => trivial
  | ok found => exact Nat.le_trans ordered advances

/-- With a clause that goes on from its opening brace, a turn goes on from its place. -/
theorem turnAdvances_bodyTurn? {clause : Nat → Option (Scanned MessageNode)}
    {inBranch inPlural : Bool} {state : BodyState} {turn : Turn BodyState (Scanned Message)}
    (advances : ∀ position result, clause position = some result →
      Advances (position + 1) result)
    (taken : bodyTurn? source clause inBranch inPlural state = some turn) :
    TurnAdvances BodyState.position state.position turn := by
  unfold bodyTurn? at taken
  split at taken
  · split at taken
    · cases taken
      trivial
    · rcases Option.bind_eq_some_iff.mp taken with ⟨run, _, ⟨⟩⟩
      exact Nat.le_refl state.position
  · next byte here =>
      split at taken
      · rcases Option.bind_eq_some_iff.mp taken with ⟨run, _, ⟨⟩⟩
        exact Nat.le_refl state.position
      · split at taken
        · rcases Option.bind_eq_some_iff.mp taken with ⟨run, _, inside⟩
          rcases Option.bind_eq_some_iff.mp inside with ⟨found, read, goesOn⟩
          cases found with
          | ok found =>
              cases goesOn
              exact advances _ _ read
          | error fault =>
              rcases Option.bind_eq_some_iff.mp goesOn with ⟨stop, ends, kept⟩
              rcases Option.bind_eq_some_iff.mp kept with ⟨text, _, last⟩
              split at last
              · cases last
                trivial
              · cases last
                exact lt_of_matchingBraceWithin? here ends
        · split at taken
          · rcases Option.bind_eq_some_iff.mp taken with ⟨run, _, ⟨⟩⟩
            exact Nat.lt_succ_self state.position
          · cases taken
            exact Nat.lt_succ_self state.position

/-- With messages that never go back, a turn of branches goes on from its place. -/
theorem turnAdvances_branchTurn? {body : Nat → Option (Scanned Message)} {kind : BranchKind}
    {state : BranchState} {turn : Turn BranchState (Scanned Branches)}
    (advances : ∀ start result, body start = some result → Advances start result)
    (taken : branchTurn? source body kind state = some turn) :
    TurnAdvances BranchState.position state.position turn := by
  rcases Option.bind_eq_some_iff.mp taken with ⟨found, opened, goesOn⟩
  split at goesOn
  · cases goesOn
    trivial
  · cases goesOn
    exact Nat.le_of_lt (lt_of_scanBranchHead? opened)
  · have started := lt_of_scanBranchHead? opened
    rcases Option.bind_eq_some_iff.mp goesOn with ⟨read, inside, closed⟩
    have advanced := advances _ _ inside
    split at closed
    · cases closed
      trivial
    · have later := Nat.lt_of_lt_of_le started advanced
      split at closed
      · cases closed
        simp only [TurnAdvances, BranchState.position_add]
        exact Nat.lt_succ_of_lt later
      · cases closed
        trivial

theorem Advances.closeScanned {name : String} {kind : BranchKind} {start : Nat}
    {result : Scanned Branches} (advances : Advances start result) :
    Advances start (closeScanned name kind result) := by
  unfold Message.closeScanned
  split
  · trivial
  · trivial
  · next branches other stop =>
      cases branchesNode name kind branches other with
      | error fault => trivial
      | ok node => exact advances

/-- With branches that never go back, a clause goes on from its opening brace. -/
theorem advances_clauseAt? {branches : BranchKind → Nat → Option (Scanned Branches)}
    {depth : Nat} {result : Scanned MessageNode}
    (advances : ∀ kind start result, branches kind start = some result → Advances start result)
    (scanned : clauseAt? source branches depth position = some result) :
    Advances (position + 1) result := by
  rcases Option.bind_eq_some_iff.mp scanned with ⟨found, opened, goesOn⟩
  split at goesOn
  · cases goesOn
    trivial
  · rcases Option.bind_eq_some_iff.mp goesOn with ⟨text, _, ⟨⟩⟩
    exact Nat.le_of_lt (lt_of_scanHead? opened)
  · rcases Option.bind_eq_some_iff.mp goesOn with ⟨text, _, ⟨⟩⟩
    exact Nat.le_of_lt (lt_of_scanHead? opened)
  · have started := lt_of_scanHead? opened
    split at goesOn
    · cases goesOn
      trivial
    · rcases Option.map_eq_some_iff.mp goesOn with ⟨read, inside, rfl⟩
      exact ((advances _ _ _ inside).mono (Nat.le_of_lt started)).closeScanned

/-- Whatever the scans come to, they never went back. -/
theorem scan_advances (source : List Char) (fuel : Nat) :
    (∀ inBranch inPlural depth state result,
      scanBody? source fuel inBranch inPlural depth state = some result →
        Advances state.position result) ∧
    (∀ inPlural depth position result,
      scanClause? source fuel inPlural depth position = some result →
        Advances (position + 1) result) ∧
    ∀ kind inPlural depth state result,
      scanBranches? source fuel kind inPlural depth state = some result →
        Advances state.position result := by
  induction fuel with
  | zero =>
      refine ⟨?_, ?_, ?_⟩
      · intro inBranch inPlural depth state result scanned
        cases scanned
      · intro inPlural depth position result scanned
        cases scanned
      · intro kind inPlural depth state result scanned
        cases scanned
  | succ fuel inductionHypothesis =>
      rcases inductionHypothesis with ⟨bodies, clauses, branches⟩
      refine ⟨?_, ?_, ?_⟩
      · intro inBranch inPlural depth state result scanned
        rw [scanBody?] at scanned
        rcases Option.bind_eq_some_iff.mp scanned with ⟨turn, taken, goesOn⟩
        -- A turn that goes on has moved, so what the next turns come to is behind it.
        have advanced := turnAdvances_bodyTurn? (clauses inPlural depth) taken
        cases turn with
        | done found =>
            cases goesOn
            exact advanced
        | again next => exact (bodies _ _ _ _ _ goesOn).mono (Nat.le_of_lt advanced)
      · intro inPlural depth position result scanned
        rw [scanClause?] at scanned
        exact advances_clauseAt? (fun kind start _ => branches kind _ depth ⟨[], none, start⟩ _)
          scanned
      · intro kind inPlural depth state result scanned
        rw [scanBranches?] at scanned
        rcases Option.bind_eq_some_iff.mp scanned with ⟨turn, taken, goesOn⟩
        have advanced := turnAdvances_branchTurn?
          (fun start _ => bodies true inPlural (depth + 1) ⟨[], start, start⟩ _) taken
        cases turn with
        | done found =>
            cases goesOn
            exact advanced
        | again next => exact (branches _ _ _ _ _ goesOn).mono (Nat.le_of_lt advanced)

end Progress

end Message

end LocalizedText
