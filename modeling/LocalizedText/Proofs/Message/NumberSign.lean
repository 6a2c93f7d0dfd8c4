import LocalizedText.Proofs.Message.CountBranch
import LocalizedText.Proofs.Message.Shape
import LocalizedText.Proofs.Message.Transparency

/-!
# The number sign

Within the branches of a count `#` stands for the number of the innermost count around it, through
any selections in between. Writing a number clause for the argument of that count in its place
changes nothing, as long as the counts are finite numbers.

Whether a sign is within the branches of a count is said twice: where the message is read, by a
flag, and where it is formatted, by the number that is at hand. The two agree. No sign is read that
would be formatted without a number.
-/

namespace LocalizedText

namespace Message

/-- A part is somewhere in a message, within any number of branches. -/
inductive Holds : Message → MessageNode → Prop where
  | here {message : Message} {node : MessageNode} (member : node ∈ message) : Holds message node
  | inside {message body : Message} {clause node : MessageNode} (member : clause ∈ message)
      (isBody : body ∈ clause.bodies) (held : Holds body node) : Holds message node

end Message

/-- A number clause without a style. -/
def MessageNode.plainNumber (name : String) : MessageNode :=
  .number name .standard ("\x7b" ++ name ++ ", number\x7d")

/--
A part of a message with a number clause in the place of every number sign, for the argument of the
innermost count around it. The argument of the innermost count around the part itself is given, if
there is one.
-/
def MessageNode.nameSigns (around : Option String) : MessageNode → MessageNode
  | .text content => .text content
  | .argument name source => .argument name source
  | .pound => (around.map plainNumber).getD .pound
  | .number name style source => .number name style source
  | .plural name ordinal exact categories other =>
      .plural name ordinal
        (exact.map fun branch => (branch.1, branch.2.map (nameSigns (some name))))
        (categories.map fun branch => (branch.1, branch.2.map (nameSigns (some name))))
        (other.map (nameSigns (some name)))
  | .select name cases other =>
      .select name (cases.map fun branch => (branch.1, branch.2.map (nameSigns around)))
        (other.map (nameSigns around))
termination_by node => sizeOf node
decreasing_by
  all_goals
    refine Message.sizeOf_lt_of_mem_body ‹_› ?_
    grind [bodies]

namespace Message

theorem not_holds_nil (node : MessageNode) : ¬Holds [] node := by
  rintro (member | ⟨member, -, -⟩)
  · cases member
  · cases member

theorem holds_cons {first node : MessageNode} {rest : Message} :
    Holds (first :: rest) node ↔
      node = first ∨ (∃ body ∈ first.bodies, Holds body node) ∨ Holds rest node := by
  constructor
  · rintro (member | ⟨member, isBody, held⟩)
    · rcases List.mem_cons.mp member with rfl | later
      · exact Or.inl rfl
      · exact Or.inr (Or.inr (.here later))
    · rcases List.mem_cons.mp member with rfl | later
      · exact Or.inr (Or.inl ⟨_, isBody, held⟩)
      · exact Or.inr (Or.inr (.inside later isBody held))
  · rintro (rfl | ⟨body, isBody, held⟩ | held)
    · exact .here (List.mem_cons_self ..)
    · exact .inside (List.mem_cons_self ..) isBody held
    · cases held with
      | here member => exact .here (List.mem_cons_of_mem _ member)
      | inside member isBody held => exact .inside (List.mem_cons_of_mem _ member) isBody held

end Message

namespace MessageNode

/-- The argument of the innermost count around the branches of a clause. -/
def countInside (around : Option String) : MessageNode → Option String
  | .plural name .. => some name
  | _ => around

theorem eq_none_of_countInside {around : Option String} {node : MessageNode}
    (uncounted : node.countInside around = none) : around = none := by
  cases node with
  | plural => cases uncounted
  | text | argument | pound | number | select => exact uncounted

theorem bodies_nameSigns (around : Option String) (node : MessageNode) :
    (node.nameSigns around).bodies =
      node.bodies.map (List.map (nameSigns (node.countInside around))) := by
  cases node with
  | pound => cases around <;> simp [nameSigns, bodies, plainNumber]
  | plural | select => simp [nameSigns, bodies, countInside, Function.comp_def]
  | text | argument | number => simp [nameSigns, bodies]

/-- A number sign, or a selection with one in it that is in no branch of a count. -/
inductive IsLoose : MessageNode → Prop where
  | pound : IsLoose .pound
  | select {name : String} {cases : List (String × List MessageNode)} {other : List MessageNode}
      {body : Message} {node : MessageNode}
      (isBody : body ∈ (MessageNode.select name cases other).bodies) (member : node ∈ body)
      (loose : IsLoose node) : IsLoose (.select name cases other)

end MessageNode

namespace Message

/-- There is no number sign outside of the branches of every count. -/
def HasNoLooseSign (message : Message) : Prop :=
  ∀ node ∈ message, ¬node.IsLoose

theorem HasNoLooseSign.body {node : MessageNode} {message body : Message}
    (noLoose : HasNoLooseSign message) (member : node ∈ message) (isBody : body ∈ node.bodies)
    (uncounted : node.countInside none = none) : HasNoLooseSign body := by
  intro inside isInside loose
  cases node with
  | plural => cases uncounted
  | select => exact noLoose _ member (.select isBody isInside loose)
  | text | argument | pound | number => cases isBody

/-- Outside of the branches of every count, a number sign is read as text. -/
theorem IsShaped.hasNoLooseSign {depth : Nat} {message : Message}
    (shaped : IsShaped false depth message) : HasNoLooseSign message := by
  intro node member loose
  induction loose generalizing depth message with
  | pound =>
      rcases shaped.of_mem member with ⟨_, ⟨⟩, -⟩ | ⟨-, ⟨⟩⟩ | clause
      cases clause
  | select isBody isInside _ inductionHypothesis =>
      exact inductionHypothesis (shaped.of_mem_bodies member isBody).2 isInside

theorem hasNoLooseSign_ofText (text : String) : HasNoLooseSign (ofText text) :=
  (isShaped_ofText text).hasNoLooseSign

end Message

/-- Naming every sign in a message leaves none, but for loose ones that nothing names. -/
theorem Message.not_holds_pound (message : Message) : ∀ around : Option String,
    (around = none → message.HasNoLooseSign) →
      ¬Message.Holds (message.map (MessageNode.nameSigns around)) .pound := by
  induction message using Message.bodiesInduction with
  | nil =>
      intro around _
      exact Message.not_holds_nil _
  | cons node rest inBodies inRest =>
      intro around noLoose
      rw [List.map_cons, Message.holds_cons, MessageNode.bodies_nameSigns]
      rintro (isFirst | ⟨named, isNamed, held⟩ | held)
      · cases node with
        | pound =>
            cases around with
            | none => exact noLoose rfl .pound (List.mem_cons_self ..) .pound
            | some name => simp [MessageNode.nameSigns, MessageNode.plainNumber] at isFirst
        | text | argument | number | plural | select => simp [MessageNode.nameSigns] at isFirst
      · rcases List.mem_map.mp isNamed with ⟨body, isBody, rfl⟩
        apply inBodies body isBody _ _ held
        intro uncounted
        have isNone : around = none := MessageNode.eq_none_of_countInside uncounted
        exact (noLoose isNone).body (List.mem_cons_self ..) isBody (isNone ▸ uncounted)
      · apply inRest around _ held
        intro isNone
        exact (List.forall_mem_cons.mp (noLoose isNone)).2

namespace MessageScope

variable {scope : MessageScope} {output : MessageOutput}

/-- The argument of every count in a message is a finite number. -/
def HasCounts (scope : MessageScope) (message : Message) : Prop :=
  ∀ name ordinal exact categories other,
    message.Holds (.plural name ordinal exact categories other) →
      ∃ value, scope.number? name = some value ∧ value.isFinite = true

theorem HasCounts.tail {node : MessageNode} {rest : Message}
    (counts : scope.HasCounts (node :: rest)) : scope.HasCounts rest := by
  intro name ordinal exact categories other held
  exact counts name ordinal exact categories other
    (Message.holds_cons.mpr (Or.inr (Or.inr held)))

theorem HasCounts.body {node : MessageNode} {rest body : Message}
    (counts : scope.HasCounts (node :: rest)) (isBody : body ∈ node.bodies) :
    scope.HasCounts body := by
  intro name ordinal exact categories other held
  exact counts name ordinal exact categories other
    (Message.holds_cons.mpr (Or.inr (Or.inl ⟨body, isBody, held⟩)))

/--
Where the number of the innermost count is that of the argument by which its signs are named, naming
the signs changes nothing.
-/
theorem addNodes_nameSigns (message : Message) :
    ∀ (scope : MessageScope) (output : MessageOutput) (around : Option String),
      scope.HasCounts message →
      (∀ name, around = some name →
        ∃ value, scope.number? name = some value ∧ scope.pound = some value) →
      scope.addNodes output (message.map (MessageNode.nameSigns around)) =
        scope.addNodes output message := by
  -- A count changes the number at hand and the name for signs together, a selection neither. So
  -- what is known of the two holds in the branches again.
  induction message using Message.bodiesInduction with
  | nil =>
      intros
      rfl
  | cons node rest inBodies inRest =>
      intro scope output around counts named
      have first : scope.addNode output (node.nameSigns around) = scope.addNode output node := by
        cases node with
        | text | argument | number => rw [MessageNode.nameSigns]
        | pound =>
            cases around with
            | none => rw [MessageNode.nameSigns, Option.map_none, Option.getD_none]
            | some name =>
                rcases named name rfl with ⟨value, isNumber, isSign⟩
                simp [MessageNode.nameSigns, MessageNode.plainNumber, addNode, isNumber, isSign,
                  MessageNumberStyle.options]
        | plural name ordinal exact categories other =>
            rcases counts name ordinal exact categories other (.here (List.mem_cons_self ..)) with
              ⟨value, isNumber, finite⟩
            have isBody :=
              scope.pluralBranch_mem_bodies output name ordinal exact categories other
            rw [MessageNode.nameSigns, addNode_plural, addNode_plural, pluralBranch_map]
            have inner : some (scope.count name) = some value :=
              congrArg some (count_of_number? isNumber finite)
            refine inBodies _ isBody { scope with pound := some (scope.count name) } _ (some name)
              (counts.body isBody) ?_
            rintro _ ⟨⟩
            exact ⟨value, isNumber, inner⟩
        | select name cases other =>
            have isBody := scope.selectBranch_mem_bodies name cases other
            rw [MessageNode.nameSigns, addNode_select, addNode_select, selectBranch_map]
            exact inBodies _ isBody _ _ _ (counts.body isBody) named
      rw [List.map_cons, addNodes, addNodes, first, inRest _ _ _ counts.tail named]

/--
While a message is added to an output, a part of it is added within a scope of its own, unless a
number before it is formatted without end.
-/
inductive Reaches : MessageScope → MessageOutput → Message → MessageScope → MessageNode → Prop where
  | here {scope : MessageScope} {output : MessageOutput} {node : MessageNode} {rest : Message} :
      Reaches scope output (node :: rest) scope node
  | plural {scope inner : MessageScope} {output : MessageOutput} {rest : Message} {name : String}
      {ordinal : Bool} {exact : List (Int × List MessageNode)}
      {categories : List (PluralCategory × List MessageNode)} {other : List MessageNode}
      {node : MessageNode}
      (inside : Reaches { scope with pound := some (scope.count name) }
        (scope.pluralBranch output name ordinal exact categories other).1
        (scope.pluralBranch output name ordinal exact categories other).2 inner node) :
      Reaches scope output (.plural name ordinal exact categories other :: rest) inner node
  | select {scope inner : MessageScope} {output : MessageOutput} {rest : Message} {name : String}
      {cases : List (String × List MessageNode)} {other : List MessageNode} {node : MessageNode}
      (inside : Reaches scope output (scope.selectBranch name cases other) inner node) :
      Reaches scope output (.select name cases other :: rest) inner node
  | later {scope inner : MessageScope} {output : MessageOutput} {first node : MessageNode}
      {rest : Message} (behind : Reaches scope (scope.addNode output first) rest inner node) :
      Reaches scope output (first :: rest) inner node

/-- Every number sign that is reached has a number, if loose ones have. -/
theorem Reaches.exists_pound {message : Message} {inner : MessageScope} {node : MessageNode}
    (reaches : scope.Reaches output message inner node) (isSign : node = .pound)
    (loose : scope.pound = none → message.HasNoLooseSign) :
    ∃ value, inner.pound = some value := by
  induction reaches with
  | @here scope output node rest =>
      subst isSign
      cases isNone : scope.pound with
      | none => exact absurd .pound (loose isNone .pound (List.mem_cons_self ..))
      | some value => exact ⟨value, rfl⟩
  | plural inside inductionHypothesis => exact inductionHypothesis isSign nofun
  | @select scope inner output rest name cases other node inside inductionHypothesis =>
      apply inductionHypothesis isSign
      intro isNone
      exact (loose isNone).body (List.mem_cons_self ..)
        (scope.selectBranch_mem_bodies name cases other) rfl
  | later behind inductionHypothesis =>
      apply inductionHypothesis isSign
      intro isNone
      exact (List.forall_mem_cons.mp (loose isNone)).2

end MessageScope

namespace MessageFormatter

/--
A number sign stands for the number of the innermost count around it, whatever was read and
formatted before. A text whose counts are finite numbers is formatted as the message that has number
clauses in place of all signs, and the one is formatted without end if the other is. No sign is left
there, and formatting never gets to a sign that has no number.
-/
theorem format_eq_nameSigns (native : Bool) (planCapacity capacity : Nat) (rules : PluralRules)
    (earlier : List NumberCall) (calls : List MessageFormatterCall) (text : String)
    (parameters : Parameters) (locale : String) :
    let numbers := (NumberFormatter.ofMode native planCapacity).run earlier
    let formatter := calls.foldl perform (ofParts numbers rules capacity)
    let scope : MessageScope := ⟨parameters, locale, rules, none⟩
    let start : MessageOutput := ⟨some "", formatter.numbers, formatter.ordinals, []⟩
    let message := Message.ofText text
    let named : Message := message.map (MessageNode.nameSigns none)
    (scope.HasCounts message →
      scope.addNodes start named = scope.addNodes start message ∧
        (formatter.format text parameters locale).1 = (scope.addNodes start named).text) ∧
      ¬named.Holds .pound ∧
      ∀ inner, scope.Reaches start message inner .pound → ∃ value, inner.pound = some value := by
  intro numbers formatter scope start message named
  have faithful : formatter.IsFaithful native rules :=
    isFaithful_after_calls native planCapacity capacity rules earlier calls
  have noLoose : message.HasNoLooseSign := Message.hasNoLooseSign_ofText text
  refine ⟨?_, message.not_holds_pound none fun _ => noLoose, ?_⟩
  · intro counts
    have same : scope.addNodes start named = scope.addNodes start message :=
      MessageScope.addNodes_nameSigns message scope start none counts nofun
    refine ⟨same, ?_⟩
    rw [same]
    exact faithful.format_text rfl faithful.numbers faithful.ordinals text parameters locale
  · intro inner reaches
    exact reaches.exists_pound rfl fun _ => noLoose

end MessageFormatter

theorem Message.ofText_nestedSigns :
    ofText ("\x7bn, plural, other \x7b# \x7bkind, select, other \x7b# " ++
        "\x7bm, selectordinal, =2 \x7b#\x7d other \x7b\x7d\x7d\x7d\x7d\x7d\x7d #") =
      [.plural "n" false [] []
          [.pound, .text " ",
            .select "kind" []
              [.pound, .text " ", .plural "m" true [(2, [.pound])] [] []]],
        .text " #"] := by
  have none : AreBlanks [] := by simp [AreBlanks]
  have one : AreBlanks [' '] := by simp [AreBlanks, Text.isAsciiBlank]
  have space : IsRun true true " " := by decide
  have sign : IsRun false false " #" := by decide
  have mHead : WrittenHead "m" "selectordinal" "m, selectordinal".toList :=
    ⟨[], [], [' '], [], none, none, one, none, by decide, rfl⟩
  have mBranches : AreCountBranches [(2, [.pound])] [] :=
    ⟨List.pairwise_singleton _ _, by simp, .nil, by simp⟩
  have m : WrittenClause true 2 (.plural "m" true [(2, [.pound])] [] []) _ :=
    .plural (by decide) mHead mBranches (List.Perm.refl _)
      (.cons one one (.pound .nil) (.cons one one .nil (.nil none)))
  have kindHead : WrittenHead "kind" "select" "kind, select".toList :=
    ⟨[], [], [' '], [], none, none, one, none, by decide, rfl⟩
  have kind : WrittenClause true 1 (.select "kind" []
      [.pound, .text " ", .plural "m" true [(2, [.pound])] [] []]) _ :=
    .select (by decide) kindHead ⟨.nil, by simp, by simp⟩ (List.Perm.refl _)
      (.cons one one (.pound (.text space rfl (.clause m .nil))) (.nil none))
  have nHead : WrittenHead "n" "plural" "n, plural".toList :=
    ⟨[], [], [' '], [], none, none, one, none, by decide, rfl⟩
  have n : WrittenClause false 0 (.plural "n" false [] []
      [.pound, .text " ", .select "kind" []
        [.pound, .text " ", .plural "m" true [(2, [.pound])] [] []]]) _ :=
    .plural (by decide) nHead ⟨.nil, by simp, .nil, by simp⟩ (List.Perm.refl _)
      (.cons one one (.pound (.text space rfl (.clause kind .nil))) (.nil none))
  exact ofText_eq_of_written (.clause n (.text sign rfl .nil)) (by decide)

/-- A sign within a selection has the number of the count around it, not that of the one inside. -/
theorem MessageFormatter.format_eq_nameSigns_nested :
    let text := "\x7bn, plural, other \x7b# \x7bkind, select, other \x7b# " ++
      "\x7bm, selectordinal, =2 \x7b#\x7d other \x7b\x7d\x7d\x7d\x7d\x7d\x7d #"
    let named : Message :=
      [.plural "n" false [] []
          [.plainNumber "n", .text " ",
            .select "kind" []
              [.plainNumber "n", .text " ", .plural "m" true [(2, [.plainNumber "m"])] [] []]],
        .text " #"]
    let parameters : Parameters := [("m", .number (.ofNat 2)), ("n", .number (.ofNat 7))]
    let formatter := ofParts default {} usualCapacity
    let start : MessageOutput := ⟨some "", formatter.numbers, formatter.ordinals, []⟩
    (Message.ofText text).map (MessageNode.nameSigns none) = named ∧
      ∀ locale, (formatter.format text parameters locale).1 =
        ((⟨parameters, locale, {}, none⟩ : MessageScope).addNodes start named).text := by
  intro text named parameters formatter start
  have isNamed : (Message.ofText text).map (MessageNode.nameSigns none) = named := by
    rw [Message.ofText_nestedSigns]
    simp [MessageNode.nameSigns, named]
  refine ⟨isNamed, ?_⟩
  intro locale
  let scope : MessageScope := ⟨parameters, locale, {}, none⟩
  have counts : scope.HasCounts (Message.ofText text) := by
    rw [Message.ofText_nestedSigns]
    intro name ordinal exact categories other held
    have named : name = "n" ∨ name = "m" := by
      simp [Message.holds_cons, Message.not_holds_nil, MessageNode.bodies] at held
      exact held.imp And.left And.left
    rcases named with rfl | rfl
    · exact ⟨.ofNat 7, rfl, by decide +kernel⟩
    · exact ⟨.ofNat 2, rfl, by decide +kernel⟩
  rw [← isNamed]
  exact ((format_eq_nameSigns true NumberFormatter.usualCapacity usualCapacity {} [] [] text
    parameters locale).1 counts).2

end LocalizedText
