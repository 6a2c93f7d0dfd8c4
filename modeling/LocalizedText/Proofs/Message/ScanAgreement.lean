import LocalizedText.Proofs.Message.Recovery
import LocalizedText.Proofs.Message.Scanning

/-!
# Scanning is reading

A scan and the reading of what is left at its place come to the same. A scan of a message carries
the parts it has found and the place where the text after them starts, while reading builds a
message from its end; the two meet when the parts are put in front of what is read after the text so
far.

So the scan of a text has a result. None of its slices divides a character, no count of braces goes
below zero, and its turns come to an end.
-/

namespace LocalizedText

namespace Message

/--
A scan has the result of reading: a fault for none, and otherwise a value that is as the one read,
at a place with the same rest.
-/
def Agrees {α β : Type} (source : List Char) (same : α → β → Prop)
    (scanned : Option (Scanned α)) : Option (β × List Char) → Prop
  | none => ∃ fault, scanned = some (.error fault)
  | some (value, rest) => ∃ found stop, scanned = some (.ok (found, stop)) ∧ same found value ∧
      Text.RestAt source stop rest

theorem Agrees.map {α β γ : Type} {source : List Char} {same : α → β → Prop}
    {other : α → γ → Prop} {scanned : Option (Scanned α)}
    {read : Option (β × List Char)} (change : β → γ) (agrees : Agrees source same scanned read)
    (implies : ∀ found value, same found value → other found (change value)) :
    Agrees source other scanned (read.map fun result => (change result.1, result.2)) := by
  cases read with
  | none => exact agrees
  | some result =>
      rcases agrees with ⟨found, stop, scan, isSame, place⟩
      exact ⟨found, stop, scan, implies found result.1 isSame, place⟩

section Words

variable {source input : List Char} {position : Nat}

theorem isBytewise_isAsciiBlank : Text.IsBytewise Text.isAsciiBlank isBlankByte := by
  intro character byte member
  rw [Bool.eq_iff_iff]
  constructor
  · intro blank
    simp only [isBlankByte, Bool.or_eq_true, beq_iff_eq] at blank
    rcases blank with (((rfl | rfl) | rfl) | rfl) | rfl <;>
      rw [Text.eq_of_mem_utf8EncodeChar member (by decide)] <;> rfl
  · intro blank
    simp only [Text.isAsciiBlank, Bool.or_eq_true, beq_iff_eq] at blank
    rcases blank with (((rfl | rfl) | rfl) | rfl) | rfl <;>
      rw [List.mem_singleton.mp member] <;> rfl

/-- The stops of a word are characters of ASCII. -/
def AreAscii (stops : List Char) : Prop :=
  (Text.utf8 stops).all (· < 0x80) = true

theorem isBytewise_isWordChar {stops : List Char} (ascii : AreAscii stops) :
    Text.IsBytewise (isWordChar stops) (isWordByte stops) := by
  intro character byte member
  have isStop : (Text.utf8 stops).contains byte = stops.contains character := by
    rw [Bool.eq_iff_iff, List.contains_iff_mem, List.contains_iff_mem]
    constructor
    · intro found
      rcases List.mem_flatMap.mp found with ⟨stop, isStop, ofStop⟩
      have small : byte.toNat < 128 := of_decide_eq_true (List.all_eq_true.mp ascii byte found)
      rwa [Text.eq_of_mem_utf8EncodeChar member small,
        ← Text.eq_of_mem_utf8EncodeChar ofStop small]
    · intro found
      exact List.mem_flatMap.mpr ⟨character, found, member⟩
  rw [isWordByte, isWordChar, isStop, isBytewise_isAsciiBlank character byte member]

theorem skipBlanks_restAt (place : Text.RestAt source position input) :
    Text.RestAt source (skipBlanks source position) (Text.skipBlank input) :=
  place.skipBytes isBytewise_isAsciiBlank

/-- The word at a place is a slice, and is the one that reading finds. -/
theorem scanWord?_restAt (stops : List Char) (ascii : AreAscii stops)
    (place : Text.RestAt source position input) :
    ∃ stop, scanWord? source stops position = some (word stops input, stop) ∧
      Text.RestAt source stop (afterWord stops input) := by
  have ends := place.skipBytes (isBytewise_isWordChar ascii)
  refine ⟨_, ?_, ends⟩
  have whole : input = word stops input ++ afterWord stops input :=
    List.takeWhile_append_dropWhile.symm
  rw [whole] at place
  rw [scanWord?, place.slice?_between ends]
  rfl

end Words

section Heads

variable {source input : List Char} {position : Nat}

theorem scanClose_agrees (head : ClauseHead) (place : Text.RestAt source position input) :
    Agrees source Eq (some (scanClose source head position)) (closeHead head input).toOption := by
  have closing : Text.byteAt? source position = some 0x7d ↔ ∃ tail, input = '\x7d' :: tail :=
    place.byteAt?_eq_some_iff (by decide)
  unfold scanClose
  split
  · next here =>
      rcases closing.mp here with ⟨tail, rfl⟩
      exact ⟨head, position + 1, rfl, rfl, place.next rfl⟩
  · next here =>
      have unclosed : closeHead head input = .error .unclosed := by
        unfold closeHead
        split
        · exact absurd (closing.mpr ⟨_, rfl⟩) here
        · rfl
      rw [unclosed]
      exact ⟨_, rfl⟩

theorem scanNumber?_agrees (name : String) (place : Text.RestAt source position input) :
    Agrees source Eq (scanNumber? source name position) (numberHead name input).toOption := by
  have comma : Text.byteAt? source position = some 0x2c ↔ ∃ tail, input = ',' :: tail :=
    place.byteAt?_eq_some_iff (by decide)
  unfold scanNumber?
  split
  · next here =>
      rcases comma.mp here with ⟨tail, rfl⟩
      rcases scanWord?_restAt braces rfl (skipBlanks_restAt (place.next rfl)) with
        ⟨stop, worded, ends⟩
      simp only [worded, Option.bind_eq_bind, Option.bind_some, numberHead]
      cases numberStyle? (word braces (Text.skipBlank tail)) with
      | none => exact ⟨_, rfl⟩
      | some style => exact scanClose_agrees _ (skipBlanks_restAt ends)
  · next here =>
      have standard : numberHead name input = closeHead (.number name .standard) input := by
        unfold numberHead
        split
        · exact absurd (comma.mpr ⟨_, rfl⟩) here
        · rfl
      rw [standard]
      exact scanClose_agrees _ place

theorem scanKeyword?_agrees (name : String) (place : Text.RestAt source position input) :
    Agrees source Eq (scanKeyword? source name position) (keywordHead name input).toOption := by
  rcases scanWord?_restAt keywordStops rfl (skipBlanks_restAt place) with
    ⟨stop, worded, ends⟩
  have follows := skipBlanks_restAt ends
  have comma : Text.byteAt? source (skipBlanks source stop) = some 0x2c ↔
      ∃ tail, Text.skipBlank (afterWord keywordStops (Text.skipBlank input)) = ',' :: tail :=
    follows.byteAt?_eq_some_iff (by decide)
  simp only [scanKeyword?, worded, Option.bind_eq_bind, Option.bind_some, keywordHead]
  split
  · exact scanNumber?_agrees name follows
  · cases branchKind? (word keywordStops (Text.skipBlank input)) with
    | none => exact ⟨_, rfl⟩
    | some kind =>
        simp only
        split
        · next here =>
            rcases comma.mp here with ⟨tail, rest⟩
            rw [rest] at follows ⊢
            exact ⟨_, _, rfl, rfl, follows.next rfl⟩
        · next here =>
            split
            · next same => exact absurd (comma.mpr ⟨_, same⟩) here
            · exact ⟨_, rfl⟩

/-- The head of a clause is the same by its bytes. -/
theorem scanHead?_agrees (place : Text.RestAt source position input) :
    Agrees source Eq (scanHead? source position) (clauseHead input).toOption := by
  rcases scanWord?_restAt nameStops rfl (skipBlanks_restAt place) with ⟨stop, worded, ends⟩
  have follows := skipBlanks_restAt ends
  have closing : Text.byteAt? source (skipBlanks source stop) = some 0x7d ↔
      ∃ tail, Text.skipBlank (afterWord nameStops (Text.skipBlank input)) = '\x7d' :: tail :=
    follows.byteAt?_eq_some_iff (by decide)
  have comma : Text.byteAt? source (skipBlanks source stop) = some 0x2c ↔
      ∃ tail, Text.skipBlank (afterWord nameStops (Text.skipBlank input)) = ',' :: tail :=
    follows.byteAt?_eq_some_iff (by decide)
  simp only [scanHead?, worded, Option.bind_eq_bind, Option.bind_some, clauseHead]
  split
  · exact ⟨_, rfl⟩
  · split
    · next here =>
        rcases closing.mp here with ⟨tail, rest⟩
        rw [rest] at follows ⊢
        exact ⟨_, _, rfl, rfl, follows.next rfl⟩
    · next notClosed =>
        split
        · next here =>
            rcases comma.mp here with ⟨tail, rest⟩
            rw [rest] at follows ⊢
            exact scanKeyword?_agrees _ (follows.next rfl)
        · next here =>
            split
            · next same => exact absurd (closing.mpr ⟨_, same⟩) notClosed
            · next same => exact absurd (comma.mpr ⟨_, same⟩) here
            · exact ⟨_, rfl⟩

/-- What comes next among branches is the same by its bytes. -/
theorem scanBranchHead?_agrees (kind : BranchKind) (place : Text.RestAt source position input) :
    Agrees source Eq (scanBranchHead? source kind position) (branchHead kind input).toOption := by
  have start := skipBlanks_restAt place
  have closing : Text.byteAt? source (skipBlanks source position) = some 0x7d ↔
      ∃ tail, Text.skipBlank input = '\x7d' :: tail :=
    start.byteAt?_eq_some_iff (by decide)
  unfold branchHead
  split
  · next ended =>
      rw [ended] at start
      simp only [scanBranchHead?, start.byteAt?_of_nil]
      exact ⟨_, rfl⟩
  · next tail closes =>
      simp only [scanBranchHead?, closing.mpr ⟨_, closes⟩, if_pos]
      rw [closes] at start
      exact ⟨_, _, rfl, rfl, start.next rfl⟩
  · next notEnded notClosed =>
      obtain ⟨byte, here⟩ : ∃ byte,
          Text.byteAt? source (skipBlanks source position) = some byte := by
        rcases List.exists_cons_of_ne_nil notEnded with ⟨character, tail, rest⟩
        rw [rest] at start
        rcases start.exists_byteAt? character.utf8Size_pos with ⟨byte, _, here⟩
        exact ⟨byte, here⟩
      have apart : byte ≠ 0x7d := by
        rintro rfl
        rcases closing.mp here with ⟨tail, rest⟩
        exact notClosed tail rest
      rcases scanWord?_restAt braces rfl start with ⟨stop, worded, ends⟩
      have follows := skipBlanks_restAt ends
      have opening : Text.byteAt? source (skipBlanks source stop) = some 0x7b ↔
          ∃ tail, Text.skipBlank (afterWord braces (Text.skipBlank input)) = '\x7b' :: tail :=
        follows.byteAt?_eq_some_iff (by decide)
      simp only [scanBranchHead?, here, if_neg apart, worded, Option.bind_eq_bind,
        Option.bind_some]
      split
      · exact ⟨_, rfl⟩
      · split
        · next opens =>
            rcases opening.mp opens with ⟨tail, rest⟩
            rw [rest] at follows ⊢
            exact ⟨_, _, rfl, rfl, follows.next rfl⟩
        · next notOpened =>
            split
            · next same => exact absurd (opening.mpr ⟨_, same⟩) notOpened
            · exact ⟨_, rfl⟩

end Heads

section Turns

variable {source tail : List Char} {fuel : Nat} {inBranch inPlural : Bool} {depth : Nat}

theorem scanBody?_done {state : BodyState} {result : Scanned Message}
    (turn : bodyTurn? source (scanClause? source fuel inPlural depth) inBranch inPlural state =
      some (.done result)) :
    scanBody? source (fuel + 1) inBranch inPlural depth state = some result := by
  rw [scanBody?, turn]
  rfl

theorem scanBody?_again {state next : BodyState}
    (turn : bodyTurn? source (scanClause? source fuel inPlural depth) inBranch inPlural state =
      some (.again next)) :
    scanBody? source (fuel + 1) inBranch inPlural depth state =
      scanBody? source fuel inBranch inPlural depth next := by
  rw [scanBody?, turn]
  rfl

theorem scanBranches?_done {kind : BranchKind} {state : BranchState} {result : Scanned Branches}
    (turn : branchTurn? source
      (fun start => scanBody? source fuel true inPlural (depth + 1) ⟨[], start, start⟩) kind state =
        some (.done result)) :
    scanBranches? source (fuel + 1) kind inPlural depth state = some result := by
  rw [scanBranches?, turn]
  rfl

theorem scanBranches?_again {kind : BranchKind} {state next : BranchState}
    (turn : branchTurn? source
      (fun start => scanBody? source fuel true inPlural (depth + 1) ⟨[], start, start⟩) kind state =
        some (.again next)) :
    scanBranches? source (fuel + 1) kind inPlural depth state =
      scanBranches? source fuel kind inPlural depth next := by
  rw [scanBranches?, turn]
  rfl

/-- Bytes that neither end the message nor start a part of it are passed, a byte by turn. -/
theorem scanBody?_pass {state : BodyState} (count fuel : Nat) (plain : ∀ offset < count, ∃ byte,
      Text.byteAt? source (state.position + offset) = some byte ∧
        ¬(byte = 0x7d ∧ inBranch = true) ∧ byte ≠ 0x7b ∧ ¬(byte = 0x23 ∧ inPlural = true)) :
    scanBody? source (fuel + count) inBranch inPlural depth state =
      scanBody? source fuel inBranch inPlural depth
        { state with position := state.position + count } := by
  induction count generalizing fuel with
  | zero => rfl
  | succ count inductionHypothesis =>
      have before := inductionHypothesis (fuel + 1) fun offset bounded =>
        plain offset (Nat.lt_succ_of_lt bounded)
      rw [Nat.add_right_comm] at before
      rcases plain count (Nat.lt_succ_self count) with ⟨byte, here, noClose, noOpen, noSign⟩
      refine before.trans (scanBody?_again ?_)
      simp only [bodyTurn?, here, if_neg noClose, if_neg noOpen, if_neg noSign]
      rfl

/-- However many bytes a character has, it is passed as one. -/
theorem scanBody?_character {state : BodyState} {character : Char}
    (place : Text.RestAt source state.position (character :: tail))
    (noClose : ¬(character = '\x7d' ∧ inBranch = true)) (noOpen : character ≠ '\x7b')
    (noSign : ¬(character = '#' ∧ inPlural = true)) :
    scanBody? source (fuel + character.utf8Size) inBranch inPlural depth state =
      scanBody? source fuel inBranch inPlural depth
        { state with position := state.position + character.utf8Size } := by
  apply scanBody?_pass
  intro offset inside
  rcases place.exists_byteAt? inside with ⟨byte, member, here⟩
  refine ⟨byte, here, ?_, ?_, ?_⟩
  · rintro ⟨rfl, branch⟩
    exact noClose ⟨Text.eq_of_mem_utf8EncodeChar member (by decide), branch⟩
  · rintro rfl
    exact noOpen (Text.eq_of_mem_utf8EncodeChar member (by decide))
  · rintro ⟨rfl, plural⟩
    exact noSign ⟨Text.eq_of_mem_utf8EncodeChar member (by decide), plural⟩

/-- From its opening brace on, a malformed clause is a slice of the text. -/
theorem matchingBraceWithin?_restAt {position : Nat}
    (place : Text.RestAt source position ('\x7b' :: tail)) :
    ∃ stop, matchingBraceWithin? (Text.utf8 source) position = some stop ∧
      Text.slice? source position stop = some ('\x7b' :: (splitAtClosing 1 tail).1) ∧
      Text.RestAt source stop (splitAtClosing 1 tail).2 := by
  have opens : Text.byteAt? source position = some 0x7b :=
    (place.byteAt?_eq_some_iff (by decide)).mpr ⟨tail, rfl⟩
  have whole : '\x7b' :: tail =
      ('\x7b' :: (splitAtClosing 1 tail).1) ++ (splitAtClosing 1 tail).2 := by
    rw [List.cons_append, splitAtClosing_append]
  have ends : Text.RestAt source (matchingBrace (Text.utf8 source) position)
      (splitAtClosing 1 tail).2 := by
    rcases place with ⟨before, rfl, rfl⟩
    refine ⟨before ++ '\x7b' :: (splitAtClosing 1 tail).1, ?_, matchingBrace_utf8 before tail⟩
    rw [List.append_assoc, ← whole]
  rw [whole] at place
  exact ⟨_, matchingBraceWithin?_of_open opens, place.slice?_between ends, ends⟩

end Turns

section Parts

variable {message : Message}

theorem consText_append (front back : List Char) (message : Message) :
    consText (front ++ back) message = consText front (consText back message) := by
  induction front with
  | nil => rfl
  | cons character front inductionHypothesis =>
      rw [List.cons_append, consText_cons, inductionHypothesis, ← consText_cons]

theorem consNode_of_not_text {node : MessageNode} (apart : isText node = false)
    (message : Message) : consNode node message = node :: message := by
  cases node with
  | text => cases apart
  | argument | pound | number | plural | select => rfl

theorem foldr_pushText (nodes : Message) (text : List Char) (message : Message) :
    (pushText nodes text).foldr consNode message =
      nodes.foldr consNode (consText text message) := by
  unfold pushText
  split
  · next empty => rw [List.isEmpty_iff.mp empty]; rfl
  · rw [List.foldr_append, List.foldr_cons, List.foldr_nil, consNode, String.toList_ofList]

/--
A message that was found ends in the one that was read, after the parts and the text in front of it.
-/
def Continues (nodes : Message) (text : List Char) (found read : Message) : Prop :=
  joinTexts found = nodes.foldr consNode (consText text read)

section Continues

variable {nodes found : Message} {text : List Char}

theorem Continues.of_node {node : MessageNode} (apart : isText node = false)
    (continues : Continues (pushText nodes text ++ [node]) [] found message) :
    Continues nodes text found (node :: message) := by
  rw [Continues, List.foldr_append, foldr_pushText] at continues
  rw [Continues, continues, List.foldr_cons, List.foldr_nil, consNode_of_not_text apart]
  rfl

theorem Continues.of_text {kept : List Char}
    (continues : Continues (pushText (pushText nodes text) kept) [] found message) :
    Continues nodes text found (consText kept message) := by
  rw [Continues, foldr_pushText, foldr_pushText] at continues
  exact continues

theorem Continues.of_passed {character : Char}
    (continues : Continues nodes (text ++ [character]) found message) :
    Continues nodes text found (consText [character] message) := by
  rw [Continues, consText_append] at continues
  exact continues

end Continues

/-- Branches that were found are the ones so far with the ones that were read after them. -/
def ContinuesBranches (state : BranchState) (found read : Branches) : Prop :=
  found = (state.branches ++ read.1, read.2 <|> state.other)

theorem ContinuesBranches.eq_of_start {position : Nat} {found read : Branches}
    (continues : ContinuesBranches ⟨[], none, position⟩ found read) : found = read := by
  simpa [ContinuesBranches] using continues

theorem ContinuesBranches.of_add {state : BranchState} {selector : String} {body : Message}
    {stop : Nat} {found read : Branches}
    (continues : ContinuesBranches (state.add selector body stop) found read) :
    ContinuesBranches state found (consBranch selector body read) := by
  unfold ContinuesBranches BranchState.add at continues
  unfold ContinuesBranches consBranch
  split
  · next isOther =>
      rw [continues, if_pos isOther]
      cases read.2 <;> rfl
  · next own =>
      rw [continues, if_neg own, List.append_assoc]
      rfl

/-- Branches that agree make the same clause. -/
theorem agrees_closeScanned {source : List Char} {start : Nat} {scanned : Option (Scanned Branches)}
    {read : Option (Branches × List Char)} (name : String) (kind : BranchKind)
    (agrees : Agrees source (ContinuesBranches ⟨[], none, start⟩) scanned read) :
    Agrees source Eq (scanned.map (closeScanned name kind))
      (read.bind (closeClause name kind)) := by
  cases read with
  | none =>
      rcases agrees with ⟨fault, rfl⟩
      exact ⟨fault, rfl⟩
  | some result =>
      rcases result with ⟨⟨branches, other⟩, after⟩
      rcases agrees with ⟨found, stop, rfl, continues, ends⟩
      rw [continues.eq_of_start]
      cases other with
      | none => exact ⟨.missingOther, rfl⟩
      | some other =>
          simp only [Option.map_some, Option.bind_some, closeScanned, closeClause]
          cases branchesNode name kind branches other with
          | error fault => exact ⟨fault, rfl⟩
          | ok node => exact ⟨node, stop, rfl, rfl, ends⟩

end Parts

section Steps

variable {source text tail rest : List Char} {fuel : Nat} {inBranch inPlural : Bool} {depth : Nat}
  {state : BodyState}

/-- A scan of a message that goes on from a later place with a rest is as reading this. -/
def AgreesAfter (source : List Char) (fuel : Nat) (inBranch inPlural : Bool)
    (depth position : Nat) (rest : List Char) : Prop :=
  ∀ (next : BodyState) (text : List Char), position < next.position →
    Text.RestAt source next.textStart (text ++ rest) → Text.RestAt source next.position rest →
      Agrees source (Continues next.nodes text)
        (scanBody? source fuel inBranch inPlural depth next) (nodes? inBranch inPlural depth rest)

theorem scanBody?_agrees_of_clause {node : MessageNode} {stop : Nat}
    (run : Text.slice? source state.textStart state.position = some text)
    (here : Text.RestAt source state.position ('\x7b' :: tail))
    (read : clause? inPlural depth tail = some (node, rest))
    (scanned : scanClause? source fuel inPlural depth state.position = some (.ok (node, stop)))
    (place : Text.RestAt source stop rest)
    (after : AgreesAfter source fuel inBranch inPlural depth state.position rest) :
    Agrees source (Continues state.nodes text)
      (scanBody? source (fuel + 1) inBranch inPlural depth state)
      (nodes? inBranch inPlural depth ('\x7b' :: tail)) := by
  have byte : Text.byteAt? source state.position = some 0x7b :=
    (here.byteAt?_eq_some_iff (by decide)).mpr ⟨tail, rfl⟩
  have further : state.position + 1 ≤ stop := (scan_advances source fuel).2.1 _ _ _ _ scanned
  have turn : bodyTurn? source (scanClause? source fuel inPlural depth) inBranch inPlural state =
      some (.again ⟨pushText state.nodes text ++ [node], stop, stop⟩) := by
    simp [bodyTurn?, byte, run, scanned]
  have following := after ⟨pushText state.nodes text ++ [node], stop, stop⟩ [] further place place
  rw [scanBody?_again turn, nodes?_clause read]
  exact following.map (List.cons node) fun _ _ continues =>
    continues.of_node (derivesClause_of_clause? read).isText_eq_false

theorem scanBody?_agrees_of_malformed {fault : MessageFault}
    (run : Text.slice? source state.textStart state.position = some text)
    (here : Text.RestAt source state.position ('\x7b' :: tail))
    (malformed : clause? inPlural depth tail = none)
    (scanned : scanClause? source fuel inPlural depth state.position = some (.error fault))
    (after : AgreesAfter source fuel inBranch inPlural depth state.position
      (splitAtClosing 1 tail).2) :
    Agrees source (Continues state.nodes text)
      (scanBody? source (fuel + 1) inBranch inPlural depth state)
      (nodes? inBranch inPlural depth ('\x7b' :: tail)) := by
  have byte : Text.byteAt? source state.position = some 0x7b :=
    (here.byteAt?_eq_some_iff (by decide)).mpr ⟨tail, rfl⟩
  rcases matchingBraceWithin?_restAt here with ⟨stop, matched, kept, place⟩
  have further := lt_of_matchingBraceWithin? byte matched
  have last : stop = Text.byteLength source ↔ (splitAtClosing 1 tail).2.isEmpty = true := by
    rw [place.eq_byteLength_iff, List.isEmpty_iff]
  rw [nodes?_malformed malformed]
  split
  · next ends =>
      rcases ends with ⟨ends, rfl⟩
      rw [last.mpr ends] at matched kept
      refine ⟨.unclosed, scanBody?_done ?_⟩
      simp [bodyTurn?, byte, run, scanned, matched, kept]
  · next goesOn =>
      rw [← last] at goesOn
      have turn : bodyTurn? source (scanClause? source fuel inPlural depth) inBranch inPlural
          state = some (.again ⟨pushText (pushText state.nodes text)
            ('\x7b' :: (splitAtClosing 1 tail).1), stop, stop⟩) := by
        simp [bodyTurn?, byte, run, scanned, matched, kept, goesOn]
      have following := after ⟨pushText (pushText state.nodes text)
        ('\x7b' :: (splitAtClosing 1 tail).1), stop, stop⟩ [] further place place
      rw [scanBody?_again turn]
      exact following.map (consText _) fun _ _ continues => continues.of_text

theorem scanBody?_agrees_of_sign
    (run : Text.slice? source state.textStart state.position = some text)
    (here : Text.RestAt source state.position ('#' :: tail))
    (after : AgreesAfter source fuel inBranch true depth state.position tail) :
    Agrees source (Continues state.nodes text)
      (scanBody? source (fuel + 1) inBranch true depth state)
      (nodes? inBranch true depth ('#' :: tail)) := by
  have byte : Text.byteAt? source state.position = some 0x23 :=
    (here.byteAt?_eq_some_iff (by decide)).mpr ⟨tail, rfl⟩
  have place := here.next rfl
  have turn : bodyTurn? source (scanClause? source fuel true depth) inBranch true state =
      some (.again ⟨pushText state.nodes text ++ [.pound], state.position + 1,
        state.position + 1⟩) := by
    simp [bodyTurn?, byte, run]
  have following := after ⟨pushText state.nodes text ++ [.pound], state.position + 1,
    state.position + 1⟩ [] (Nat.lt_succ_self _) place place
  rw [scanBody?_again turn, nodes?_character (by decide) (by simp)]
  exact following.map (consCharacter true '#') fun _ _ continues => continues.of_node rfl

/-- A turn for a branch is as reading it, when the scans of its body and of the later branches are. -/
theorem scanBranches?_agrees_of_branch {kind : BranchKind} {state : BranchState}
    {selector : String} {start : Nat} {input : List Char}
    (head : branchHead kind input = .ok (.branch selector, rest))
    (scanned : scanBranchHead? source kind state.position = some (.ok (.branch selector, start)))
    (inside : Agrees source (Continues [] [])
      (scanBody? source fuel true inPlural (depth + 1) ⟨[], start, start⟩)
      (nodes? true inPlural (depth + 1) rest))
    (after : ∀ (next : BranchState) (tail : List Char), state.position < next.position →
      Text.RestAt source next.position tail →
        Agrees source (ContinuesBranches next)
          (scanBranches? source fuel kind inPlural depth next)
          (branches? kind inPlural depth tail)) :
    Agrees source (ContinuesBranches state)
      (scanBranches? source (fuel + 1) kind inPlural depth state)
      (branches? kind inPlural depth input) := by
  have further := lt_of_scanBranchHead? scanned
  rw [branches?_branch head]
  cases read : nodes? true inPlural (depth + 1) rest with
  | none =>
      rw [read] at inside
      rcases inside with ⟨fault, found⟩
      refine ⟨fault, scanBranches?_done ?_⟩
      simp [branchTurn?, scanned, found]
  | some result =>
      rcases result with ⟨body, left⟩
      rw [read] at inside
      rcases inside with ⟨found, stop, bodied, continues, ends⟩
      have advanced : start ≤ stop := (scan_advances source fuel).1 _ _ _ _ _ bodied
      have joined : joinTexts found = body := continues
      have closing : Text.byteAt? source stop = some 0x7d ↔ ∃ tail, left = '\x7d' :: tail :=
        ends.byteAt?_eq_some_iff (by decide)
      by_cases closes : Text.byteAt? source stop = some 0x7d
      · rcases closing.mp closes with ⟨tail, rfl⟩
        have turn : branchTurn? source
            (fun start => scanBody? source fuel true inPlural (depth + 1) ⟨[], start, start⟩)
            kind state = some (.again (state.add selector body (stop + 1))) := by
          simp [branchTurn?, scanned, bodied, joined, closes]
        have following := after (state.add selector body (stop + 1)) tail
          (by rw [BranchState.position_add]; omega)
          (by rw [BranchState.position_add]; exact ends.next rfl)
        rw [scanBranches?_again turn]
        exact following.map (consBranch selector body) fun _ _ continues => continues.of_add
      · have unclosed : closeBranch kind inPlural depth selector (body, left) = none := by
          unfold closeBranch
          split
          · next same => exact absurd (closing.mpr ⟨_, same⟩) closes
          · rfl
        rw [Option.bind_some, unclosed]
        refine ⟨.unclosed, scanBranches?_done ?_⟩
        simp [branchTurn?, scanned, bodied, closes]

end Steps

-- The induction is on the fuel. A turn takes one of it and moves the place on, so that the two
-- together stay above the number of bytes; a scan that is out of fuel would be past the end.
mutual

/--
A scan of a message is as reading it, whatever was found and passed before, with more fuel than
there are bytes left.
-/
theorem scanBody?_agrees (fuel : Nat) (inBranch inPlural : Bool) (depth : Nat)
    {source input text : List Char} {state : BodyState}
    (enough : Text.byteLength source < state.position + fuel)
    (begun : Text.RestAt source state.textStart (text ++ input))
    (here : Text.RestAt source state.position input) :
    Agrees source (Continues state.nodes text)
      (scanBody? source fuel inBranch inPlural depth state)
      (nodes? inBranch inPlural depth input) := by
  have run := begun.slice?_between here
  have bounded := here.le_byteLength
  have ended : Continues state.nodes text (pushText state.nodes text) [] :=
    foldr_pushText state.nodes text []
  obtain ⟨left, rfl⟩ : ∃ left, fuel = left + 1 := ⟨fuel - 1, by omega⟩
  have after (rest : List Char) :
      AgreesAfter source left inBranch inPlural depth state.position rest :=
    fun next text later begun here =>
      scanBody?_agrees left inBranch inPlural depth (by omega) begun here
  match input with
  | [] =>
      rw [nodes?_nil]
      cases inBranch with
      | true =>
          refine ⟨.unclosed, scanBody?_done ?_⟩
          simp [bodyTurn?, here.byteAt?_of_nil]
      | false =>
          refine ⟨_, _, scanBody?_done ?_, ended, here⟩
          simp [bodyTurn?, here.byteAt?_of_nil, run]
  | character :: tail =>
      by_cases closes : character = '\x7d' ∧ inBranch = true
      · rcases closes with ⟨rfl, rfl⟩
        have byte : Text.byteAt? source state.position = some 0x7d :=
          (here.byteAt?_eq_some_iff (by decide)).mpr ⟨tail, rfl⟩
        rw [nodes?_close]
        refine ⟨_, _, scanBody?_done ?_, ended, here⟩
        simp [bodyTurn?, byte, run]
      · by_cases opens : character = '\x7b'
        · subst opens
          have agrees := scanClause?_agrees left inPlural depth (by omega) here
          cases clause : clause? inPlural depth tail with
          | some found =>
              rcases found with ⟨node, rest⟩
              rw [clause] at agrees
              rcases agrees with ⟨_, stop, scanned, same, place⟩
              rw [same] at scanned
              exact scanBody?_agrees_of_clause run here clause scanned place (after rest)
          | none =>
              rw [clause] at agrees
              rcases agrees with ⟨fault, scanned⟩
              exact scanBody?_agrees_of_malformed run here clause scanned (after _)
        · by_cases sign : character = '#' ∧ inPlural = true
          · rcases sign with ⟨rfl, rfl⟩
            exact scanBody?_agrees_of_sign run here (after tail)
          · -- A character of several bytes takes as many turns.
            have within := here.tail.le_byteLength
            have positive := character.utf8Size_pos
            obtain ⟨less, rest⟩ : ∃ less, left + 1 = less + character.utf8Size :=
              ⟨left + 1 - character.utf8Size, by omega⟩
            rw [rest, scanBody?_character here closes opens sign, nodes?_character opens closes]
            rw [List.append_cons] at begun
            have following : Agrees source (Continues state.nodes (text ++ [character]))
                (scanBody? source less inBranch inPlural depth
                  { state with position := state.position + character.utf8Size })
                (nodes? inBranch inPlural depth tail) :=
              scanBody?_agrees less inBranch inPlural depth (by simp only; omega) begun here.tail
            apply following.map (consCharacter inPlural character)
            intro found message continues
            rw [consCharacter, if_neg sign]
            exact continues.of_passed
termination_by fuel

/-- A scan of a clause is as reading it. -/
theorem scanClause?_agrees (fuel : Nat) (inPlural : Bool) (depth : Nat)
    {source input : List Char} {position : Nat}
    (enough : Text.byteLength source < position + 1 + fuel)
    (here : Text.RestAt source position ('\x7b' :: input)) :
    Agrees source Eq (scanClause? source fuel inPlural depth position)
      (clause? inPlural depth input) := by
  have inside := here.next rfl
  have bounded := inside.le_byteLength
  have opened := scanHead?_agrees inside
  obtain ⟨left, rfl⟩ : ∃ left, fuel = left + 1 := ⟨fuel - 1, by omega⟩
  rw [scanClause?, clauseAt?]
  cases head : clauseHead input with
  | error fault =>
      rw [head] at opened
      rcases opened with ⟨fault, scanned⟩
      rw [clause?_fault head]
      refine ⟨fault, ?_⟩
      simp [scanned]
  | ok found =>
      rcases found with ⟨found, rest⟩
      rw [head] at opened
      rcases opened with ⟨_, stop, scanned, same, place⟩
      rw [same] at scanned
      have further := lt_of_scanHead? scanned
      obtain ⟨front, whole, -⟩ := takes_clauseHead head
      have taken : clauseSource input rest = String.ofList ('\x7b' :: front) := by
        rw [← whole, clauseSource_append]
      have slice : Text.slice? source position stop = some ('\x7b' :: front) := by
        rw [← whole] at here
        exact Text.RestAt.slice?_between here place
      cases found with
      | argument name =>
          rw [clause?_argument head, taken]
          refine ⟨_, stop, ?_, rfl, place⟩
          simp [scanned, slice]
      | number name style =>
          rw [clause?_number head, taken]
          refine ⟨_, stop, ?_, rfl, place⟩
          simp [scanned, slice]
      | branches name kind =>
          have inside : Agrees source (ContinuesBranches ⟨[], none, stop⟩)
              (scanBranches? source left kind (inPlural || kind != .select) depth
                ⟨[], none, stop⟩)
              (branches? kind (inPlural || kind != .select) depth rest) :=
            scanBranches?_agrees left kind _ depth (by simp only; omega) place
          rw [clause?_branches head]
          by_cases deep : maxDepth ≤ depth
          · rw [if_pos deep]
            refine ⟨.tooDeep, ?_⟩
            simp [scanned, deep]
          · rw [if_neg deep]
            simpa [scanned, deep] using agrees_closeScanned name kind inside
termination_by fuel

/-- A scan of branches is as reading the rest of them, whatever was found before. -/
theorem scanBranches?_agrees (fuel : Nat) (kind : BranchKind) (inPlural : Bool) (depth : Nat)
    {source input : List Char} {state : BranchState}
    (enough : Text.byteLength source < state.position + fuel)
    (here : Text.RestAt source state.position input) :
    Agrees source (ContinuesBranches state)
      (scanBranches? source fuel kind inPlural depth state)
      (branches? kind inPlural depth input) := by
  have opened := scanBranchHead?_agrees kind here
  have bounded := here.le_byteLength
  obtain ⟨left, rfl⟩ : ∃ left, fuel = left + 1 := ⟨fuel - 1, by omega⟩
  cases head : branchHead kind input with
  | error fault =>
      rw [head] at opened
      rcases opened with ⟨fault, scanned⟩
      rw [branches?_fault head]
      refine ⟨fault, scanBranches?_done ?_⟩
      simp [branchTurn?, scanned]
  | ok next =>
      rcases next with ⟨next, rest⟩
      rw [head] at opened
      rcases opened with ⟨_, start, scanned, same, place⟩
      rw [same] at scanned
      have further := lt_of_scanBranchHead? scanned
      cases next with
      | close =>
          rw [branches?_close head]
          refine ⟨(state.branches, state.other), start, scanBranches?_done ?_, ?_, place⟩
          · simp [branchTurn?, scanned]
          · simp [ContinuesBranches]
      | branch selector =>
          have inside : Agrees source (Continues [] [])
              (scanBody? source left true inPlural (depth + 1) ⟨[], start, start⟩)
              (nodes? true inPlural (depth + 1) rest) :=
            scanBody?_agrees left true inPlural (depth + 1) (by simp only; omega) place place
          apply scanBranches?_agrees_of_branch head scanned inside
          intro later tail further here
          exact scanBranches?_agrees left kind inPlural depth (by omega) here
termination_by fuel

end

section Text

/--
A scan of a whole text comes to the end of it, without a fault, and finds what is read, with more
fuel than there are bytes.
-/
theorem scanBody?_text (text : String) {fuel : Nat}
    (enough : Text.byteLength text.toList < fuel) :
    ∃ nodes, scanBody? text.toList fuel false false 0 ⟨[], 0, 0⟩ =
        some (.ok (nodes, Text.byteLength text.toList)) ∧
      joinTexts nodes = ofText text := by
  have start := Text.RestAt.start text.toList
  have agrees : Agrees text.toList (Continues [] [])
      (scanBody? text.toList fuel false false 0 ⟨[], 0, 0⟩) (nodes? false false 0 text.toList) :=
    scanBody?_agrees fuel false false 0 (by simpa using enough) start start
  rw [nodes?_ofText] at agrees
  rcases agrees with ⟨nodes, stop, scanned, continues, ends⟩
  rw [ends.eq_byteLength_iff.mpr rfl] at scanned
  exact ⟨nodes, scanned, continues⟩

/--
The scan of a text is safe and total. With more fuel than there are bytes it comes to the end of the
text without a fault, so that the text itself never has to stand for its message, and it finds the
message that is read. None of its slices ends within a character or outside of the text, and from an
opening brace on the count of braces never goes below zero, as either would leave no result.
Whatever turn is followed by another one, the place has moved on.
-/
theorem scan?_total (text : String) :
    (∀ fuel, Text.byteLength text.toList < fuel →
      (∃ nodes, scanBody? text.toList fuel false false 0 ⟨[], 0, 0⟩ =
        some (.ok (nodes, Text.byteLength text.toList))) ∧
      scan? fuel text = some (ofText text)) ∧
    (∀ start, Text.byteAt? text.toList start = some 0x7b →
      ∃ stop, matchingBraceWithin? (Text.utf8 text.toList) start = some stop) ∧
    (∀ fuel inBranch inPlural depth state next,
      bodyTurn? text.toList (scanClause? text.toList fuel inPlural depth) inBranch inPlural state =
          some (.again next) →
        state.position < next.position) ∧
    (∀ fuel kind inPlural depth state next,
      branchTurn? text.toList
          (fun start => scanBody? text.toList fuel true inPlural (depth + 1) ⟨[], start, start⟩)
          kind state = some (.again next) →
        state.position < next.position) := by
  refine ⟨?_, ?_, ?_, ?_⟩
  · intro fuel enough
    rcases scanBody?_text text enough with ⟨nodes, scanned, joined⟩
    refine ⟨⟨nodes, scanned⟩, ?_⟩
    simp [scan?, scanned, joined]
  · intro start opens
    exact ⟨_, matchingBraceWithin?_of_open opens⟩
  · intro fuel inBranch inPlural depth state next taken
    rcases scan_advances text.toList fuel with ⟨-, clauses, -⟩
    exact turnAdvances_bodyTurn? (clauses inPlural depth) taken
  · intro fuel kind inPlural depth state next taken
    rcases scan_advances text.toList fuel with ⟨bodies, -, -⟩
    exact turnAdvances_branchTurn?
      (fun start => bodies true inPlural (depth + 1) ⟨[], start, start⟩) taken

/--
A turn may start the next one within a character. As a message, the text ends with a malformed
clause; as branches, its first turn goes past the whole of it.
-/
theorem scan?_total_accented :
    let text := "é{}"
    let source := text.toList
    ((∃ nodes, scanBody? source 5 false false 0 ⟨[], 0, 0⟩ = some (.ok (nodes, 4))) ∧
      scan? 5 text = some (ofText text)) ∧
    (∃ stop, matchingBraceWithin? (Text.utf8 source) 2 = some stop) ∧
    (∃ next, bodyTurn? source (scanClause? source 4 false 0) false false ⟨[], 0, 0⟩ =
      some (.again next) ∧ 0 < next.position) ∧
    ∃ next, branchTurn? source (fun start => scanBody? source 4 true false 1 ⟨[], start, start⟩)
      .select ⟨[], none, 0⟩ = some (.again next) ∧ 0 < next.position := by
  intro text source
  have length : Text.byteLength source = 4 := by decide
  have passes : bodyTurn? source (scanClause? source 4 false 0) false false ⟨[], 0, 0⟩ =
      some (.again ⟨[], 0, 1⟩) := by
    have here : Text.byteAt? source 0 = some 0xc3 := by decide
    simp [bodyTurn?, here]
  have branch : branchTurn? source
      (fun start => scanBody? source 4 true false 1 ⟨[], start, start⟩) .select ⟨[], none, 0⟩ =
        some (.again ⟨[("é", [])], none, 4⟩) := by
    have head : scanBranchHead? source .select 0 = some (.ok (.branch "é", 3)) := by decide
    have here : Text.byteAt? source 3 = some 0x7d := by decide
    have empty : Text.slice? source 3 3 = some [] := by decide
    have body : scanBody? source 4 true false 1 ⟨[], 3, 3⟩ = some (.ok ([], 3)) :=
      scanBody?_done (by simp [bodyTurn?, here, empty, pushText])
    simp [branchTurn?, head, body, here, BranchState.add, joinTexts]
  rcases scan?_total text with ⟨scans, counts, bodyTurns, branchTurns⟩
  have scanned := scans 5 (by rw [length]; decide)
  rw [length] at scanned
  exact ⟨scanned, counts 2 (by decide), ⟨_, passes, bodyTurns _ _ _ _ _ _ passes⟩,
    ⟨_, branch, branchTurns _ _ _ _ _ _ branch⟩⟩

end Text

end Message

end LocalizedText
