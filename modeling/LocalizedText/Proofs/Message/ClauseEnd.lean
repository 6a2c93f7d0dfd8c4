import LocalizedText.Proofs.Message.Slices
import LocalizedText.Proofs.Text.Bytes

/-!
# Where a clause ends among the bytes

The end of a malformed clause is looked for in the bytes of the text, by a scan that only counts
braces. A clause that is read has the same end, although nothing in reading it counts. No byte of a
character outside of ASCII is a brace, so counting bytes is counting characters.
-/

namespace LocalizedText

namespace Message

/-- How many bytes there are up to the one that closes the outermost brace, with this one. -/
def closingLength? (depth : Nat) : List UInt8 → Option Nat
  | [] => none
  | byte :: rest =>
      if byte = 0x7b then (closingLength? (depth + 1) rest).map (· + 1)
      else if byte = 0x7d then
        if depth - 1 = 0 then some 1 else (closingLength? (depth - 1) rest).map (· + 1)
      else (closingLength? depth rest).map (· + 1)

/--
The position after the byte that closes the brace at a position, or the end of the bytes when there
is none.
-/
def matchingBrace (bytes : List UInt8) (start : Nat) : Nat :=
  match closingLength? 0 (bytes.drop start) with
  | some length => start + length
  | none => bytes.length

theorem closingLength?_append_of_apart {front : List UInt8} (depth : Nat)
    (apart : ∀ byte ∈ front, byte ≠ 0x7b ∧ byte ≠ 0x7d) (rest : List UInt8) :
    closingLength? depth (front ++ rest) =
      (closingLength? depth rest).map (· + front.length) := by
  induction front with
  | nil => simp
  | cons byte front ih =>
      rw [List.forall_mem_cons] at apart
      rw [List.cons_append, closingLength?, if_neg apart.1.1, if_neg apart.1.2, ih apart.2,
        Option.map_map, List.length_cons]
      rfl

/-- The scan of the bytes and the scan of the characters come to the same end. -/
theorem closingLength?_utf8 (depth : Nat) (text : List Char) :
    (closingLength? (depth + 1) (Text.utf8 text)).getD (Text.utf8 text).length =
      (Text.utf8 (splitAtClosing (depth + 1) text).1).length := by
  induction text generalizing depth with
  | nil => rfl
  | cons character rest ih =>
      by_cases opens : character = '\x7b'
      · subst opens
        have split : (splitAtClosing (depth + 1) ('\x7b' :: rest)).1 =
            '\x7b' :: (splitAtClosing (depth + 2) rest).1 := by
          simp [splitAtClosing]
        rw [split, Text.utf8_open, Text.utf8_open, closingLength?, if_pos rfl, List.length_cons,
          List.length_cons, ← ih (depth + 1), Option.getD_map]
      · by_cases closes : character = '\x7d'
        · subst closes
          rw [Text.utf8_close, closingLength?, if_neg (by decide), if_pos rfl, List.length_cons]
          cases depth with
          | zero =>
              have split : (splitAtClosing 1 ('\x7d' :: rest)).1 = ['\x7d'] := by
                simp [splitAtClosing]
              rw [split]
              rfl
          | succ depth =>
              have split : (splitAtClosing (depth + 2) ('\x7d' :: rest)).1 =
                  '\x7d' :: (splitAtClosing (depth + 1) rest).1 := by
                simp [splitAtClosing]
              rw [split, Text.utf8_close, List.length_cons, ← ih depth, if_neg (by omega),
                Nat.add_sub_cancel, Option.getD_map]
        · have split : (splitAtClosing (depth + 1) (character :: rest)).1 =
              character :: (splitAtClosing (depth + 1) rest).1 := by
            simp [splitAtClosing, opens, closes]
          have apart := Text.apart_of_mem_utf8EncodeChar opens closes
          rw [split, Text.utf8_cons, Text.utf8_cons, List.length_append, List.length_append,
            closingLength?_append_of_apart _ apart, ← ih depth]
          cases closingLength? (depth + 1) (Text.utf8 rest) <;> simp [Nat.add_comm]

/-- The scan of the bytes stops where the scan of the characters does, wherever the clause stands. -/
theorem matchingBrace_utf8 (before rest : List Char) :
    matchingBrace (Text.utf8 (before ++ '\x7b' :: rest)) (Text.utf8 before).length =
      (Text.utf8 (before ++ '\x7b' :: (splitAtClosing 1 rest).1)).length := by
  have inside := closingLength?_utf8 0 rest
  have scanned : closingLength? 0 (Text.utf8 ('\x7b' :: rest)) =
      (closingLength? 1 (Text.utf8 rest)).map (· + 1) := by
    rw [Text.utf8_open, closingLength?, if_pos rfl]
  rw [matchingBrace, Text.utf8_append, List.drop_left, scanned, Text.utf8_append, Text.utf8_open,
    Text.utf8_open, List.length_append, List.length_append, List.length_cons, List.length_cons,
    ← inside]
  cases closingLength? 1 (Text.utf8 rest) <;> rfl

/-- A clause that is read is what the scan of the characters finds, and its last brace is there. -/
theorem splitAtClosing_of_clause? {inPlural : Bool} {depth : Nat} {input left : List Char}
    {node : MessageNode} (read : clause? inPlural depth input = some (node, left)) :
    splitAtClosing 1 input = ((splitAtClosing 1 input).1, left) ∧
      Closes 1 (splitAtClosing 1 input).1 := by
  rcases (derivesClause_of_clause? read).takes with ⟨inside, whole, closing⟩
  have closes : Closes 1 inside := by
    simpa using closing 0 [] .nil
  have scanned := splitAtClosing_of_closes closes (by omega) left
  rw [whole] at scanned
  simp [scanned, closes]

/--
A clause that is read ends at the position that the scan of the bytes finds from its opening brace
on, and the brace there closes it. A malformed clause is kept as text up to the same position, and
reading goes on from there.
-/
theorem matchingBrace_of_clause? (inPlural : Bool) (depth : Nat) (before rest : List Char) :
    (∀ node left, clause? inPlural depth rest = some (node, left) →
      ∃ inside, inside ++ left = rest ∧ Closes 1 inside ∧
        (Text.utf8 (before ++ '\x7b' :: inside)).length =
          matchingBrace (Text.utf8 (before ++ '\x7b' :: rest)) (Text.utf8 before).length) ∧
      (clause? inPlural depth rest = none →
        ∃ inside after, inside ++ after = rest ∧
          (Text.utf8 (before ++ '\x7b' :: inside)).length =
            matchingBrace (Text.utf8 (before ++ '\x7b' :: rest)) (Text.utf8 before).length ∧
          ∀ inBranch, nodes? inBranch inPlural depth ('\x7b' :: rest) =
            if after.isEmpty = true ∧ inBranch = true then none
            else
              (nodes? inBranch inPlural depth after).map fun following =>
                (consText ('\x7b' :: inside) following.1, following.2)) := by
  have position := (matchingBrace_utf8 before rest).symm
  have whole := splitAtClosing_append 1 rest
  constructor
  · intro node left read
    rcases splitAtClosing_of_clause? read with ⟨scanned, closes⟩
    rw [scanned] at whole
    exact ⟨(splitAtClosing 1 rest).1, whole, closes, position⟩
  · intro malformed
    exact ⟨_, _, whole, position, fun inBranch => nodes?_malformed malformed⟩

/-- A clause and the malformed one inside of it both end where the scan says. -/
theorem matchingBrace_of_clause?_nested :
    let inner := "\x7d\x7d\x7d end".toList
    let outer := "n, select, other \x7b\x7b".toList ++ inner
    (∃ node, clause? false 0 outer = some (node, " end".toList)) ∧
      (∃ inside, inside ++ " end".toList = outer ∧ Closes 1 inside ∧
        (Text.utf8 ("é".toList ++ '\x7b' :: inside)).length =
          matchingBrace (Text.utf8 ("é".toList ++ '\x7b' :: outer)) 2) ∧
      clause? false 1 inner = none ∧
      ∃ inside after, inside ++ after = inner ∧
        (Text.utf8 ("é".toList ++ '\x7b' :: inside)).length =
          matchingBrace (Text.utf8 ("é".toList ++ '\x7b' :: inner)) 2 := by
  intro inner outer
  have head : clauseHead inner = .error .badName := by rfl
  have malformed : clause? false 1 inner = none := clause?_fault head
  have split : splitAtClosing 1 inner = ("\x7d".toList, "\x7d\x7d end".toList) := by decide
  have body : nodes? true false 1 ('\x7b' :: inner) =
      some ([.text "\x7b\x7d"], "\x7d\x7d end".toList) := by
    rw [nodes?_malformed malformed, split, if_neg (by simp)]
    exact congrArg _ nodes?_close
  have closing : branches? .select false 0 "\x7d end".toList =
      some (([], none), " end".toList) := branches?_close (by rfl)
  have selector : branchHead .select (" other \x7b\x7b".toList ++ inner) =
      .ok (.branch "other", '\x7b' :: inner) := by rfl
  have branches : branches? .select false 0 (" other \x7b\x7b".toList ++ inner) =
      some (([], some [.text "\x7b\x7d"]), " end".toList) := by
    rw [branches?_branch selector, body]
    exact congrArg (Option.map _) closing
  have head : clauseHead outer =
      .ok (.branches "n" .select, " other \x7b\x7b".toList ++ inner) := by rfl
  have clause : clause? false 0 outer =
      some (.select "n" [] [.text "\x7b\x7d"], " end".toList) := by
    rw [clause?_branches head, if_neg (by decide)]
    exact congrArg (Option.bind · _) branches
  have position : (Text.utf8 "é".toList).length = 2 := by decide
  have ends := (matchingBrace_of_clause? false 0 "é".toList outer).1 _ _ clause
  rcases (matchingBrace_of_clause? false 1 "é".toList inner).2 malformed with
    ⟨inside, after, whole, last, -⟩
  rw [position] at ends last
  exact ⟨⟨_, clause⟩, ends, malformed, inside, after, whole, last⟩

end Message

end LocalizedText
