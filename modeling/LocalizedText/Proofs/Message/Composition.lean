import LocalizedText.Proofs.Message.Derivation
import LocalizedText.Proofs.Message.Extent
import LocalizedText.Proofs.Message.Faithful

/-!
# Messages one after another

A text in which every open brace is closed is read up to its end before anything after it counts: a
clause that is read ends at the brace that matches its opening one, and so does the text for which a
malformed clause stands. What follows is read as if it stood alone, up to the text at the seam, and
formatted so too. The number of the branches around does not reach it, and a formatter only carries
over what it remembers.
-/

namespace LocalizedText

namespace Message

/-- The number of open braces after a character; a brace that closes none is ignored. -/
def braceDepth (depth : Nat) (character : Char) : Nat :=
  if character = '\x7b' then depth + 1
  else if character = '\x7d' then depth - 1
  else depth

/-- All open braces of a text are closed. -/
def IsBalanced (text : String) : Prop :=
  text.toList.foldl braceDepth 0 = 0

instance (text : String) : Decidable (IsBalanced text) :=
  inferInstanceAs (Decidable (_ = _))

/-- A message and another one after it, with the texts at the seam joined. -/
def join : Message → Message → Message
  | [], back => back
  | [.text left], .text right :: back => .text (left ++ right) :: back
  | node :: front, back => node :: join front back

section Join

theorem join_of_not_isText {node : MessageNode} (notText : isText node = false)
    (front back : Message) : join (node :: front) back = node :: join front back := by
  cases node with
  | text content => cases notText
  | _ => simp [join]

theorem join_cons_cons (node next : MessageNode) (front back : Message) :
    join (node :: next :: front) back = node :: join (next :: front) back := by
  simp [join]

/-- A single text is joined to what comes after it like the text in front of a clause. -/
theorem join_text (content : String) (back : Message) :
    join [.text content] back =
      match back with
      | .text next :: rest => .text (content ++ next) :: rest
      | message => .text content :: message := by
  match back with
  | [] | .text _ :: _ | .argument .. :: _ | .pound :: _ | .number .. :: _ | .plural .. :: _
  | .select .. :: _ => rfl

/-- A text in front of two messages is a text in front of the first. -/
theorem join_consText (content : List Char) (front back : Message) :
    join (consText content front) back = consText content (join front back) := by
  cases empty : content.isEmpty with
  | true => simp [consText, empty]
  | false =>
      match front with
      | [] =>
          have alone : consText content [] = [.text (String.ofList content)] := by
            simp [consText, empty]
          rw [alone, join_text]
          exact (if_neg (by simp [empty])).symm
      | [.text next] =>
          simp only [consText, empty, Bool.false_eq_true, if_false, join_text]
          split
          · simp [String.append_assoc]
          · rfl
      | .text next :: other :: rest =>
          simp [consText, empty, join_cons_cons]
      | .argument .. :: rest | .pound :: rest | .number .. :: rest | .plural .. :: rest
      | .select .. :: rest => simp [consText, empty, join]

end Join

/-- An unclosed text closes what is open with a part of it, after which it is balanced. -/
theorem closes_of_foldl_braceDepth {depth : Nat} {text : List Char} (positive : 0 < depth)
    (balanced : text.foldl braceDepth depth = 0) :
    ∃ inside after, text = inside ++ after ∧ Closes depth inside ∧
      after.foldl braceDepth 0 = 0 := by
  induction text generalizing depth with
  | nil =>
      simp only [List.foldl_nil] at balanced
      omega
  | cons character rest inductionHypothesis =>
      cases depth with
      | zero => omega
      | succ depth =>
          rw [List.foldl_cons] at balanced
          by_cases opens : character = '\x7b'
          · subst opens
            rcases inductionHypothesis (Nat.succ_pos (depth + 1)) balanced with
              ⟨inside, after, rfl, closes, left⟩
            exact ⟨'\x7b' :: inside, after, rfl, .opening closes, left⟩
          · by_cases closes : character = '\x7d'
            · subst closes
              have left : rest.foldl braceDepth depth = 0 := balanced
              cases depth with
              | zero => exact ⟨['\x7d'], rest, rfl, .closing .nil, left⟩
              | succ depth =>
                  rcases inductionHypothesis (Nat.succ_pos depth) left with
                    ⟨inside, after, rfl, closes, left⟩
                  exact ⟨'\x7d' :: inside, after, rfl, .closing closes, left⟩
            · have same : braceDepth (depth + 1) character = depth + 1 := by
                simp [braceDepth, opens, closes]
              rw [same] at balanced
              rcases inductionHypothesis (Nat.succ_pos depth) balanced with
                ⟨inside, after, rfl, ends, left⟩
              exact ⟨character :: inside, after, rfl, .other opens closes ends, left⟩

theorem join_consCharacter (inPlural : Bool) (character : Char) (front back : Message) :
    join (consCharacter inPlural character front) back =
      consCharacter inPlural character (join front back) := by
  unfold consCharacter
  split
  · exact join_of_not_isText rfl front back
  · exact join_consText [character] front back

/-- Outside of branches, what follows a balanced text is read as if it stood alone. -/
theorem nodes?_append {inPlural : Bool} {depth : Nat} {front back : List Char}
    {frontMessage backMessage : Message} (balanced : front.foldl braceDepth 0 = 0)
    (frontRead : nodes? false inPlural depth front = some (frontMessage, []))
    (backRead : nodes? false inPlural depth back = some (backMessage, [])) :
    nodes? false inPlural depth (front ++ back) = some (join frontMessage backMessage, []) := by
  match front with
  | [] =>
      rw [nodes?_nil] at frontRead
      cases frontRead
      exact backRead
  | character :: rest =>
      rw [List.foldl_cons] at balanced
      by_cases opens : character = '\x7b'
      · subst opens
        rcases closes_of_foldl_braceDepth Nat.one_pos balanced with
          ⟨inside, after, rfl, closes, left⟩
        rcases nodes?_outside inPlural depth after with ⟨following, afterRead⟩
        have shorter : after.length ≤ (inside ++ after).length := by simp
        have tail := nodes?_append left afterRead backRead
        rw [List.cons_append, List.append_assoc]
        -- How the clause is read depends on the text up to its closing brace, which is in the front.
        rcases clause?_within inPlural depth closes with
          malformed | ⟨node, _, reads, -, ⟨⟩⟩
        · rw [nodes?_malformed (malformed _), splitAtClosing_of_closes closes Nat.one_pos,
            if_neg (by simp), afterRead] at frontRead
          cases frontRead
          rw [nodes?_malformed (malformed _), splitAtClosing_of_closes closes Nat.one_pos,
            if_neg (by simp), tail, join_consText]
          rfl
        · rw [nodes?_clause (reads _), List.nil_append, afterRead] at frontRead
          cases frontRead
          rw [nodes?_clause (reads _), List.nil_append, tail,
            join_of_not_isText (derivesClause_of_clause? (reads [])).isText_eq_false]
          rfl
      · have left : rest.foldl braceDepth 0 = 0 := by
          simpa [braceDepth, opens] using balanced
        rcases nodes?_outside inPlural depth rest with ⟨following, restRead⟩
        have tail := nodes?_append left restRead backRead
        rw [nodes?_character opens (by simp), restRead] at frontRead
        cases frontRead
        rw [List.cons_append, nodes?_character opens (by simp), tail, join_consCharacter]
        rfl
termination_by front.length

/-- What follows a balanced text is read as if it stood alone. -/
theorem ofText_append_of_isBalanced {front : String} (balanced : IsBalanced front)
    (back : String) :
    ofText (front ++ back) = join (ofText front) (ofText back) := by
  have together := nodes?_append balanced (nodes?_ofText front) (nodes?_ofText back)
  rw [← String.toList_append, nodes?_ofText] at together
  exact congrArg Prod.fst (Option.some.inj together)

end Message

/-- The output with a text in front. -/
def MessageOutput.prepend (output : MessageOutput) (front : String) : MessageOutput :=
  { output with text := output.text.map (front ++ ·) }

namespace MessageScope

theorem append_prepend (output : MessageOutput) (front text : String) :
    (output.prepend front).append text = (output.append text).prepend front := by
  simp [MessageOutput.append, MessageOutput.prepend, Function.comp_def, String.append_assoc]

theorem appendNumber_prepend (output : MessageOutput) (front : String) (value : Double)
    (locale : String) (options : NumberOptions) :
    (output.prepend front).appendNumber value locale options =
      (output.appendNumber value locale options).prepend front := by
  cases before : output.text with
  | none => simp [MessageOutput.appendNumber, MessageOutput.tell, MessageOutput.prepend, before]
  | some text =>
      cases written : (output.numbers.format value locale options).1 <;>
        simp [MessageOutput.appendNumber, MessageOutput.tell, MessageOutput.prepend, before,
          written, String.append_assoc]

/-- Which branch a count chooses does not depend on the text before it. -/
theorem pluralBranch_prepend (scope : MessageScope) (output : MessageOutput) (front name : String)
    (ordinal : Bool) (exact : List (Int × List MessageNode))
    (categories : List (PluralCategory × List MessageNode)) (other : List MessageNode) :
    scope.pluralBranch (output.prepend front) name ordinal exact categories other =
      ((scope.pluralBranch output name ordinal exact categories other).1.prepend front,
        (scope.pluralBranch output name ordinal exact categories other).2) := by
  unfold pluralBranch
  simp only
  split
  · rfl
  · split
    · rfl
    · rfl

/-- What a message adds does not depend on the text before it. -/
theorem addNodes_prepend (message : Message) : ∀ (scope : MessageScope) (output : MessageOutput)
    (front : String),
    scope.addNodes (output.prepend front) message =
      (scope.addNodes output message).prepend front := by
  induction message using Message.bodiesInduction with
  | nil =>
      intros
      rfl
  | cons node rest inBodies inRest =>
      intro scope output front
      have first : scope.addNode (output.prepend front) node =
          (scope.addNode output node).prepend front := by
        cases node with
        | text content => exact append_prepend output front content
        | argument name source =>
            simp only [addNode, append_prepend]
            rfl
        | pound =>
            simp only [addNode]
            cases scope.pound with
            | none => exact append_prepend output front "#"
            | some value => exact appendNumber_prepend output front value _ _
        | number name style source =>
            simp only [addNode]
            cases scope.number? name with
            | none =>
                simp only [append_prepend]
                rfl
            | some value => exact appendNumber_prepend output front value _ _
        | plural name ordinal exact categories other =>
            rw [addNode_plural, addNode_plural, pluralBranch_prepend]
            exact inBodies _ (pluralBranch_mem_bodies ..) _ _ front
        | select name cases other =>
            rw [addNode_select, addNode_select]
            exact inBodies _ (selectBranch_mem_bodies ..) _ _ front
      cases before : output.text with
      | none =>
          have endless : (output.prepend front).text = none := by
            rw [MessageOutput.prepend, before, Option.map_none]
          rw [addNodes_of_endless before, addNodes_of_endless endless]
      | some text =>
          have goesOn : (output.prepend front).text = some (front ++ text) := by
            rw [MessageOutput.prepend, before, Option.map_some]
          rw [addNodes_cons before, addNodes_cons goesOn, first]
          exact inRest _ _ front

/-- A message made of two adds what the first adds, and then what the second adds. -/
theorem addNodes_join (front back : Message) (scope : MessageScope) (output : MessageOutput) :
    scope.addNodes output (Message.join front back) =
      scope.addNodes (scope.addNodes output front) back := by
  induction front generalizing output with
  | nil => rfl
  | cons node rest inductionHypothesis =>
      cases before : output.text with
      | none => simp only [addNodes_of_endless before]
      | some text =>
          cases rest with
          | cons next rest =>
              rw [Message.join_cons_cons, addNodes_cons before, addNodes_cons before,
                inductionHypothesis]
          | nil =>
              cases isText : Message.isText node with
              | false =>
                  rw [Message.join_of_not_isText isText, addNodes_cons before, addNodes_cons before,
                    inductionHypothesis]
              | true =>
                  cases node with
                  | text content =>
                      rw [Message.join_text]
                      split
                      · simp [addNodes, addNode, MessageOutput.append, before, String.append_assoc]
                      · simp [addNodes, addNode, MessageOutput.append, before]
                  | _ => cases isText

end MessageScope

/-- What happens to a formatter of messages, and to the number formatter that it may share. -/
inductive MessageFormatterCall where
  | format (text : String) (parameters : Parameters) (locale : String)
  | read (text : String)
  | clear
  | formatNumber (value : Double) (locale : String) (options : NumberOptions)
  | formatRange (first last : Double) (locale : String) (options : NumberOptions)
  | clearNumbers

namespace MessageFormatter

def perform (formatter : MessageFormatter) : MessageFormatterCall → MessageFormatter
  | .format text parameters locale => (formatter.format text parameters locale).2.1
  | .read text => (formatter.read text).2.1
  | .clear => formatter.clear
  | .formatNumber value locale options =>
      { formatter with numbers := (formatter.numbers.format value locale options).2.1 }
  | .formatRange first last locale options =>
      { formatter with numbers := (formatter.numbers.formatRange first last locale options).2.1 }
  | .clearNumbers => { formatter with numbers := formatter.numbers.clear }

variable {native : Bool} {rules : PluralRules} {formatter : MessageFormatter}

theorem IsFaithful.withNumbers (faithful : formatter.IsFaithful native rules)
    {numbers : NumberFormatter} (numbersFaithful : numbers.IsFaithful native) :
    { formatter with numbers }.IsFaithful native rules :=
  ⟨numbersFaithful, faithful.ordinals, faithful.rules_eq, faithful.messages⟩

theorem IsFaithful.perform (faithful : formatter.IsFaithful native rules)
    (call : MessageFormatterCall) : (formatter.perform call).IsFaithful native rules := by
  cases call with
  | format text parameters locale => exact faithful.format text parameters locale
  | read text => exact (faithful.read text).2
  | clear => exact faithful.clear
  | formatNumber value locale options =>
      exact faithful.withNumbers (faithful.numbers.format value locale options).2
  | formatRange first last locale options =>
      exact faithful.withNumbers (faithful.numbers.plan? locale options).2
  | clearNumbers =>
      exact faithful.withNumbers
        ⟨faithful.numbers.native_eq, InsertionCache.remembers_empty _⟩

theorem IsFaithful.foldl_perform (faithful : formatter.IsFaithful native rules)
    (calls : List MessageFormatterCall) :
    (calls.foldl MessageFormatter.perform formatter).IsFaithful native rules := by
  induction calls generalizing formatter with
  | nil => exact faithful
  | cons call rest inductionHypothesis => exact inductionHypothesis (faithful.perform call)

/-- Adding a message leaves faithful formatters of an output faithful. -/
theorem addNodes_isFaithful {output : MessageOutput}
    (numbers : output.numbers.IsFaithful native) (ordinals : output.ordinals.IsFaithful native)
    (scope : MessageScope) (message : Message) :
    (scope.addNodes output message).numbers.IsFaithful native ∧
      (scope.addNodes output message).ordinals.IsFaithful native := by
  have added := MessageScope.addNodes_related (FormatterBisimulation.faithful native) message
    scope scope output output (.refl scope) ⟨rfl, ⟨numbers, numbers⟩, ⟨ordinals, ordinals⟩⟩
  exact ⟨added.numbers.1, added.ordinals.1⟩

/-- The text of a message is what it adds to any empty output with faithful formatters. -/
theorem IsFaithful.format_text (faithful : formatter.IsFaithful native rules)
    {output : MessageOutput} (empty : output.text = some "")
    (numbers : output.numbers.IsFaithful native) (ordinals : output.ordinals.IsFaithful native)
    (text : String) (parameters : Parameters) (locale : String) :
    (formatter.format text parameters locale).1 =
      ((⟨parameters, locale, rules, none⟩ : MessageScope).addNodes output
        (Message.ofText text)).text := by
  rcases formatter.read_formatter text with ⟨messages, read⟩
  unfold MessageFormatter.format
  simp only [read, (faithful.read text).1, faithful.rules_eq]
  have outputs : MessageOutput.Related
      (fun left right => left.IsFaithful native ∧ right.IsFaithful native)
      (fun left right => left.IsFaithful native ∧ right.IsFaithful native)
      ⟨some "", formatter.numbers, formatter.ordinals, (formatter.read text).2.2⟩ output :=
    ⟨empty.symm, ⟨faithful.numbers, numbers⟩, ⟨faithful.ordinals, ordinals⟩⟩
  exact (MessageScope.addNodes_related (FormatterBisimulation.faithful native) _ _ _ _ _
    (.refl _) outputs).text

/--
Faithful formatters yield the text of two messages as the texts of the one and the other, if there
are both.
-/
theorem IsFaithful.format_join {frontFormatter backFormatter : MessageFormatter}
    (faithful : formatter.IsFaithful native rules)
    (frontFaithful : frontFormatter.IsFaithful native rules)
    (backFaithful : backFormatter.IsFaithful native rules) {front back : String}
    (joined : Message.ofText (front ++ back) =
      Message.join (Message.ofText front) (Message.ofText back))
    (parameters : Parameters) (locale : String) :
    (formatter.format (front ++ back) parameters locale).1 = do
      return (← (frontFormatter.format front parameters locale).1) ++
        (← (backFormatter.format back parameters locale).1) := by
  let scope : MessageScope := ⟨parameters, locale, rules, none⟩
  let start : MessageOutput := ⟨some "", formatter.numbers, formatter.ordinals, []⟩
  let middle := scope.addNodes start (Message.ofText front)
  let restart : MessageOutput := { middle with text := some "" }
  have middleFaithful : middle.numbers.IsFaithful native ∧ middle.ordinals.IsFaithful native :=
    addNodes_isFaithful faithful.numbers faithful.ordinals scope _
  have whole : (formatter.format (front ++ back) parameters locale).1 =
      (scope.addNodes middle (Message.ofText back)).text := by
    rw [faithful.format_text (rfl : start.text = some "") faithful.numbers faithful.ordinals,
      joined, MessageScope.addNodes_join]
  have ofFront : (frontFormatter.format front parameters locale).1 = middle.text :=
    frontFaithful.format_text (rfl : start.text = some "") faithful.numbers faithful.ordinals ..
  have ofBack : (backFormatter.format back parameters locale).1 =
      (scope.addNodes restart (Message.ofText back)).text :=
    backFaithful.format_text (rfl : restart.text = some "") middleFaithful.1 middleFaithful.2 ..
  rw [whole, ofFront, ofBack]
  cases before : middle.text with
  | none =>
      rw [MessageScope.addNodes_of_endless before, before]
      rfl
  | some text =>
      have same : restart.prepend text = middle := by
        simp [restart, MessageOutput.prepend, ← before]
      have added := MessageScope.addNodes_prepend (Message.ofText back) scope restart text
      rw [same] at added
      rw [added, MessageOutput.prepend]
      cases (scope.addNodes restart (Message.ofText back)).text <;> rfl

/--
A text after one in which every open brace is closed is read and formatted as if it stood alone,
whatever the formatters have done before. Only the texts at the seam become one part. Formatting the
two together returns exactly if formatting each of them does.
-/
theorem format_append_of_isBalanced {front back : String} (balanced : Message.IsBalanced front)
    (native : Bool) (planCapacity capacity : Nat) (rules : PluralRules)
    (calls frontCalls backCalls : List MessageFormatterCall) (parameters : Parameters)
    (locale : String) :
    let numbers : NumberFormatter := if native then .ofCapacity planCapacity else .manual
    let after (calls : List MessageFormatterCall) : MessageFormatter :=
      calls.foldl perform (ofParts numbers rules capacity)
    Message.ofText (front ++ back) = Message.join (Message.ofText front) (Message.ofText back) ∧
      ((after calls).format (front ++ back) parameters locale).1 = do
        return (← ((after frontCalls).format front parameters locale).1) ++
          (← ((after backCalls).format back parameters locale).1) := by
  intro numbers after
  have numbersFaithful : numbers.IsFaithful native := by
    cases native
    · exact NumberFormatter.isFaithful_manual
    · exact NumberFormatter.isFaithful_ofCapacity planCapacity
  have faithful (calls : List MessageFormatterCall) : (after calls).IsFaithful native rules :=
    (isFaithful_ofParts numbersFaithful rules capacity).foldl_perform calls
  have joined := Message.ofText_append_of_isBalanced balanced back
  exact ⟨joined, (faithful calls).format_join (faithful frontCalls) (faithful backCalls) joined
    parameters locale⟩

/-- The front may hold stray braces and malformed clauses, and the back an unclosed clause. -/
theorem format_append_of_isBalanced_malformed :
    let front := "a\x7d \x7bn, list\x7d \x7bn, plural, other \x7b\x7b\x7d#\x7d\x7d"
    let back := "\x7d \x7bn, number"
    let formatter := ofParts default {} usualCapacity
    let parameters : Parameters := [("n", .number (.ofNat 2))]
    Message.IsBalanced front ∧
      Message.ofText (front ++ back) = Message.join (Message.ofText front) (Message.ofText back) ∧
      (formatter.format (front ++ back) parameters "en").1 = do
        return (← (formatter.format front parameters "en").1) ++
          (← (formatter.format back parameters "en").1) := by
  intro front back formatter parameters
  have balanced : Message.IsBalanced front := by decide
  exact ⟨balanced, format_append_of_isBalanced balanced true NumberFormatter.usualCapacity
    usualCapacity {} [] [] [] parameters "en"⟩

end MessageFormatter

end LocalizedText
