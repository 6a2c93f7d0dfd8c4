import LocalizedText.Proofs.Message.Recovery
import LocalizedText.Proofs.Message.Transparency
import LocalizedText.Proofs.Template

/-!
# Messages with placeholders only

A text whose clauses are all arguments can be read in two ways: as a message, by its clauses, or as
a template with single braces, by the first opening brace and the first closing one after it. Both
show the same for the same parameters, as long as the names of the arguments hold nothing that has
another meaning in a clause.
-/

namespace LocalizedText

/-- The name of an argument: it holds no blanks and nothing that ends a name in a clause. -/
def IsArgumentName (name : String) : Prop :=
  name ≠ "" ∧ ∀ character ∈ name.toList,
    Text.isBlank character = false ∧ character ∉ Message.nameStops

instance (name : String) : Decidable (IsArgumentName name) :=
  decidable_of_iff (name ≠ "" ∧ name.toList.all (fun character =>
      !Text.isBlank character && !Message.nameStops.contains character) = true)
    (by simp [IsArgumentName])

/-- A text in which every opening brace is that of an argument. -/
inductive HasOnlyArguments : List Char → Prop where
  | nil : HasOnlyArguments []
  | character {character : Char} {rest : List Char} (noClause : character ≠ '\x7b')
      (following : HasOnlyArguments rest) : HasOnlyArguments (character :: rest)
  | argument {name : String} {before after rest : List Char} (isName : IsArgumentName name)
      (blanks : Message.AreBlanks before) (blanksAfter : Message.AreBlanks after)
      (following : HasOnlyArguments rest) :
      HasOnlyArguments ('\x7b' :: (before ++ (name.toList ++ (after ++ '\x7d' :: rest))))

theorem Message.AreBlanks.isBlank {blanks : List Char} (areBlanks : AreBlanks blanks) :
    ∀ character ∈ blanks, Text.isBlank character = true :=
  fun character member => Text.isBlank_of_isAsciiBlank (areBlanks character member)

section Names

variable {name : String} {before after : List Char}

theorem IsArgumentName.isWord (isName : IsArgumentName name) :
    Message.IsWord Message.nameStops name := by
  refine ⟨isName.1, ?_⟩
  intro character member
  rcases isName.2 character member with ⟨notBlank, noStop⟩
  have notAscii : Text.isAsciiBlank character = false := by
    cases blank : Text.isAsciiBlank character with
    | false => rfl
    | true => rw [Text.isBlank_of_isAsciiBlank blank] at notBlank; cases notBlank
  simp [Message.isWordChar, notAscii, noStop]

/-- A name among blanks is what is left when these are trimmed. -/
theorem IsArgumentName.trim (isName : IsArgumentName name) (blanks : Message.AreBlanks before)
    (blanksAfter : Message.AreBlanks after) :
    Text.trim (before ++ (name.toList ++ after)) = name.toList := by
  have nonempty : name.toList ≠ [] := by simpa using isName.1
  have printed : ∀ character ∈ name.toList, Text.isBlank character = false :=
    fun character member => (isName.2 character member).1
  have start : Text.Stops Text.isBlank (name.toList ++ after) :=
    Text.stops_append nonempty printed after
  have ending : Text.Stops Text.isBlank (name.toList.reverse ++ []) := by
    apply Text.stops_append
    · simpa using isName.1
    · simpa using printed
  rw [List.append_nil] at ending
  unfold Text.trim
  rw [Text.dropWhile_of_stops blanks.isBlank start, List.reverse_append,
    Text.dropWhile_of_stops _ ending, List.reverse_reverse]
  simpa using blanksAfter.isBlank

/-- The placeholder of an argument ends at the brace that closes its clause. -/
theorem IsArgumentName.unclosed (isName : IsArgumentName name) (blanks : Message.AreBlanks before)
    (blanksAfter : Message.AreBlanks after) : '\x7d' ∉ before ++ (name.toList ++ after) := by
  simp only [List.mem_append, not_or]
  refine ⟨fun member => ?_, fun member => ?_, fun member => ?_⟩
  · exact absurd (blanks _ member) (by decide)
  · exact (isName.2 _ member).2 (by decide)
  · exact absurd (blanksAfter _ member) (by decide)

end Names

namespace MessageScope

variable {scope : MessageScope} {output : MessageOutput}

/-- A text in front of a message is added before it. -/
theorem addNodes_consText {before : String} (goesOn : output.text = some before)
    (content : List Char) (message : Message) :
    scope.addNodes output (Message.consText content message) =
      scope.addNodes (output.append (String.ofList content)) message := by
  have joined : Message.consText content message =
      Message.join (Message.consText content []) message := by
    rw [Message.join_consText, Message.join]
  have added : scope.addNodes output (Message.consText content []) =
      output.append (String.ofList content) := by
    unfold Message.consText
    split
    · next empty =>
        rw [List.isEmpty_iff.mp empty]
        simp [addNodes, MessageOutput.append]
    · exact addNodes_cons goesOn _ _
  rw [joined, MessageScope.addNodes_join, added]

/-- An argument adds what its placeholder shows. -/
theorem text_addNode_argument {before : String} (goesOn : output.text = some before)
    {name : String} {body : List Char} (trimmed : Text.trim body = name.toList) :
    (scope.addNode output (.argument name (String.ofList ('\x7b' :: (body ++ ['\x7d']))))).text =
      some (before ++
        String.ofList (Template.fillPart .single scope.parameters (.placeholder body))) := by
  simp only [addNode, Template.fillPart, trimmed, MessageOutput.tell, MessageOutput.append, goesOn,
    Option.map_some]
  cases Template.resolve? scope.parameters name.toList with
  | some text => simp
  | none => simp [BraceStyle.opening, BraceStyle.closing]

/--
A text with arguments only is read as a message that adds what the text shows as a template with
single braces.
-/
theorem exists_message_of_hasOnlyArguments {text : List Char} (arguments : HasOnlyArguments text)
    (depth : Nat) :
    ∃ message, Message.nodes? false false depth text = some (message, []) ∧
      ∀ (scope : MessageScope) (output : MessageOutput) (before : String),
        output.text = some before →
          (scope.addNodes output message).text = some (before ++ String.ofList
            ((Template.split .single text).flatMap
              (Template.fillPart .single scope.parameters))) := by
  induction arguments with
  | nil =>
      refine ⟨[], Message.nodes?_nil, ?_⟩
      intro scope output before goesOn
      simp [addNodes, goesOn, Template.split_nil, Template.fillPart]
  | @character character rest noClause following inductionHypothesis =>
      rcases inductionHypothesis with ⟨message, read, added⟩
      refine ⟨Message.consText [character] message, ?_, ?_⟩
      · rw [Message.nodes?_character noClause (by simp), read]
        simp [Message.consCharacter]
      · intro scope output before goesOn
        have noOpening : character ∉ BraceStyle.single.opening := by
          simpa [BraceStyle.opening] using noClause
        rcases Template.split_character noOpening rest with ⟨run, others, parts, joined⟩
        have appended : (output.append (String.ofList [character])).text =
            some (before ++ String.ofList [character]) := by
          rw [MessageOutput.append, goesOn, Option.map_some]
        rw [addNodes_consText goesOn, added _ _ _ appended, joined, parts, String.append_assoc,
          ← String.ofList_append]
        rfl
  | @argument name before after rest isName blanks blanksAfter following inductionHypothesis =>
      rcases inductionHypothesis with ⟨message, read, added⟩
      -- The clause skips the blanks around the name, the placeholder has them trimmed later.
      let body := before ++ (name.toList ++ after)
      have clause : Message.clause? false depth
          (before ++ (name.toList ++ (after ++ '\x7d' :: rest))) =
            some (.argument name (String.ofList ('\x7b' :: (body ++ ['\x7d']))), rest) := by
        rw [Message.clause?_argument
          (Message.clauseHead_argument isName.isWord blanks blanksAfter),
          ← Message.clauseSource_append (body ++ ['\x7d']) rest]
        simp [body]
      have parts : Template.split .single
          ('\x7b' :: (before ++ (name.toList ++ (after ++ '\x7d' :: rest)))) =
            .literal [] :: .placeholder body :: Template.split .single rest := by
        rw [← Template.split_placeholder (isName.unclosed blanks blanksAfter) rest]
        simp
      refine ⟨_, by rw [Message.nodes?_clause clause, read]; rfl, ?_⟩
      intro scope output text goesOn
      rw [addNodes_cons goesOn,
        added _ _ _ (text_addNode_argument goesOn (isName.trim blanks blanksAfter)), parts,
        List.flatMap_cons, List.flatMap_cons, String.append_assoc, ← String.ofList_append]
      rfl

end MessageScope

/--
A message whose clauses are all arguments is formatted as the template that its text is, for the
same parameters, whatever was read and formatted before and whatever the locale.
-/
theorem MessageFormatter.format_eq_fill (native : Bool) (planCapacity capacity : Nat)
    (rules : PluralRules) (earlier : List NumberCall) (calls : List MessageFormatterCall)
    {text : String} (arguments : HasOnlyArguments text.toList) (parameters : Parameters)
    (locale : String) :
    let numbers := (NumberFormatter.ofMode native planCapacity).run earlier
    let formatter := calls.foldl perform (ofParts numbers rules capacity)
    (formatter.format text parameters locale).1 =
      some (Template.fill .single text parameters) := by
  intro numbers formatter
  have faithful : formatter.IsFaithful native rules :=
    isFaithful_after_calls native planCapacity capacity rules earlier calls
  let start : MessageOutput := ⟨some "", formatter.numbers, formatter.ordinals, []⟩
  rcases MessageScope.exists_message_of_hasOnlyArguments arguments 0 with ⟨message, read, added⟩
  have isRead : Message.ofText text = message := by
    rw [Message.nodes?_ofText] at read
    cases read
    rfl
  rw [faithful.format_text (rfl : start.text = some "") faithful.numbers faithful.ordinals, isRead,
    added _ _ _ rfl, String.empty_append]
  rfl

/-- Braces that close nothing, number signs, paths and values without a text make no difference. -/
theorem MessageFormatter.format_eq_fill_path :
    let text := "#\x7d \x7b user.name\x7d \x7blist \x7d\x7d \x7bmissing\x7d"
    let parameters : Parameters :=
      [("list", .withoutText .array), ("user", .bag [("name", .text "\x7blist\x7d")])]
    ((ofParts default {} usualCapacity).format text parameters "en").1 =
        some (Template.fill .single text parameters) ∧
      Template.fill .single text parameters =
        "#\x7d \x7blist\x7d \x7blist \x7d\x7d \x7bmissing\x7d" := by
  intro text parameters
  have none : Message.AreBlanks [] := by decide
  have one : Message.AreBlanks [' '] := by decide
  have userName : IsArgumentName "user.name" := by decide
  have list : IsArgumentName "list" := by decide
  have missing : IsArgumentName "missing" := by decide
  have written : HasOnlyArguments _ :=
    .character (by decide : '#' ≠ '\x7b') (.character (by decide : '\x7d' ≠ '\x7b')
      (.character (by decide : ' ' ≠ '\x7b') (.argument userName one none
        (.character (by decide : ' ' ≠ '\x7b') (.argument list none one
          (.character (by decide : '\x7d' ≠ '\x7b') (.character (by decide : ' ' ≠ '\x7b')
            (.argument missing none none .nil))))))))
  have arguments : HasOnlyArguments text.toList :=
    (congrArg HasOnlyArguments (by decide)).mpr written
  have same := format_eq_fill true NumberFormatter.usualCapacity usualCapacity {} [] [] arguments
    parameters "en"
  exact ⟨same, by decide +kernel⟩

end LocalizedText
