import LocalizedText.Message.Formatter
import LocalizedText.Proofs.Keyed

/-!
# The branches of a message

A clause with branches adds exactly one of them: by a count the one for the integer, or else for the
category, and by a text the one for the text, or else the one for all other cases. So a statement
about all messages is proved by an induction in which it is known of the messages in the branches of
the first part and of the message behind it. Which branch is chosen, and in what state of the
formatters it is added, is said apart from adding it.
-/

namespace LocalizedText

/-- The messages of the branches of a clause. -/
def MessageNode.bodies : MessageNode → List Message
  | .plural _ _ exact categories other =>
      exact.map Prod.snd ++ (categories.map Prod.snd ++ [other])
  | .select _ cases other => cases.map Prod.snd ++ [other]
  | _ => []

namespace Message

theorem sizeOf_lt_of_mem_map {κ : Type} [SizeOf κ] {branches : List (κ × Message)} {body : Message}
    (member : body ∈ branches.map Prod.snd) : sizeOf body < sizeOf branches := by
  rcases List.mem_map.mp member with ⟨⟨selector, body⟩, isBranch, rfl⟩
  have smaller := List.sizeOf_lt_of_mem isBranch
  simp only [Prod.mk.sizeOf_spec] at smaller ⊢
  omega

theorem sizeOf_lt_of_mem_bodies {node : MessageNode} {body : Message}
    (isBody : body ∈ node.bodies) : sizeOf body < sizeOf node := by
  cases node with
  | plural name ordinal exact categories other =>
      simp only [MessageNode.bodies, List.mem_append, List.mem_singleton] at isBody
      simp only [MessageNode.plural.sizeOf_spec]
      rcases isBody with inExact | inCategories | rfl
      · have smaller := sizeOf_lt_of_mem_map inExact
        omega
      · have smaller := sizeOf_lt_of_mem_map inCategories
        omega
      · omega
  | select name cases other =>
      simp only [MessageNode.bodies, List.mem_append, List.mem_singleton] at isBody
      simp only [MessageNode.select.sizeOf_spec]
      rcases isBody with inCases | rfl
      · have smaller := sizeOf_lt_of_mem_map inCases
        omega
      · omega
  | text | argument | pound | number => cases isBody

theorem sizeOf_lt_of_mem_body {node clause : MessageNode} {body : Message} (member : node ∈ body)
    (isBody : body ∈ clause.bodies) : sizeOf node < sizeOf clause :=
  Nat.lt_trans (List.sizeOf_lt_of_mem member) (sizeOf_lt_of_mem_bodies isBody)

/--
What holds of the empty message, and of a part in front of a message whenever it holds of the
messages in the part's branches and of the message behind it, holds of every message.
-/
@[elab_as_elim]
theorem bodiesInduction {motive : Message → Prop} (nil : motive [])
    (cons : ∀ node rest, (∀ body ∈ node.bodies, motive body) → motive rest →
      motive (node :: rest)) : ∀ message, motive message
  | [] => nil
  | node :: rest =>
      cons node rest (fun body _ => bodiesInduction nil cons body)
        (bodiesInduction nil cons rest)
termination_by message => sizeOf message
decreasing_by
  · have smaller := sizeOf_lt_of_mem_bodies ‹body ∈ node.bodies›
    simp only [List.cons.sizeOf_spec]
    omega
  · simp only [List.cons.sizeOf_spec]
    omega

end Message

namespace MessageScope

/--
The branch that a count chooses, and the output after it was chosen: an exact branch comes first, and
an ordinal rule may be remembered.
-/
def pluralBranch (scope : MessageScope) (output : MessageOutput) (name : String) (ordinal : Bool)
    (exact : List (Int × List MessageNode)) (categories : List (PluralCategory × List MessageNode))
    (other : List MessageNode) : MessageOutput × Message :=
  let value := scope.count name
  let output := output.tell (scope.countEvents name)
  match (exactCount? value).bind fun key => exact.lookup key with
  | some body => (output, body)
  | none =>
      if ordinal then
        let (category, ordinals) := output.ordinals.category value scope.locale
        ({ output with ordinals }, (categories.lookup category).getD other)
      else (output, (categories.lookup (scope.rules.select scope.locale value)).getD other)

/-- The branch that a text chooses. -/
def selectBranch (scope : MessageScope) (name : String) (cases : List (String × List MessageNode))
    (other : List MessageNode) : Message :=
  ((scope.selector? name).bind fun key => cases.lookup key).getD other

/-- Searching branches one after the other for a selector is looking the selector up. -/
theorem eq_map_lookup {κ α β : Type} [DecidableEq κ] {key : κ} {search : List (κ × α) → Option β}
    {result : α → β} (nil : search [] = none)
    (cons : ∀ selector body rest, search ((selector, body) :: rest) =
      if key = selector then some (result body) else search rest) (branches : List (κ × α)) :
    search branches = (branches.lookup key).map result := by
  induction branches with
  | nil => exact nil
  | cons branch rest inductionHypothesis =>
      rcases branch with ⟨selector, body⟩
      rw [cons, inductionHypothesis]
      split
      · next same => simp [same]
      · next different => rw [Keyed.lookup_cons_of_ne different]

section Adding

variable {scope : MessageScope} {output : MessageOutput}

/-- Nothing is added behind a number that is formatted without end. -/
theorem addNodes_of_endless (endless : output.text = none) (message : Message) :
    scope.addNodes output message = output := by
  cases message with
  | nil => rfl
  | cons node rest => simp [addNodes, endless]

theorem addNodes_cons {before : String} (goesOn : output.text = some before) (node : MessageNode)
    (rest : Message) :
    scope.addNodes output (node :: rest) = scope.addNodes (scope.addNode output node) rest := by
  simp [addNodes, goesOn]

theorem addExact_eq (key : Int) (branches : List (Int × List MessageNode)) :
    scope.addExact output key branches = (branches.lookup key).map (scope.addNodes output) :=
  eq_map_lookup rfl (fun _ _ _ => rfl) branches

theorem addCategory_eq (key : PluralCategory)
    (branches : List (PluralCategory × List MessageNode)) :
    scope.addCategory output key branches = (branches.lookup key).map (scope.addNodes output) :=
  eq_map_lookup rfl (fun _ _ _ => rfl) branches

theorem addCase_eq (key : String) (branches : List (String × List MessageNode)) :
    scope.addCase output key branches = (branches.lookup key).map (scope.addNodes output) :=
  eq_map_lookup rfl (fun _ _ _ => rfl) branches

/-- Branches by a count add the branch that is chosen, in which `#` stands for the count. -/
theorem addNode_plural (name : String) (ordinal : Bool) (exact : List (Int × List MessageNode))
    (categories : List (PluralCategory × List MessageNode)) (other : List MessageNode) :
    scope.addNode output (.plural name ordinal exact categories other) =
      { scope with pound := some (scope.count name) }.addNodes
        (scope.pluralBranch output name ordinal exact categories other).1
        (scope.pluralBranch output name ordinal exact categories other).2 := by
  let inner : MessageScope := { scope with pound := some (scope.count name) }
  let told := output.tell (scope.countEvents name)
  have exactly : ((exactCount? (scope.count name)).bind fun key => inner.addExact told key exact) =
      ((exactCount? (scope.count name)).bind fun key => exact.lookup key).map
        (inner.addNodes told) := by
    simp only [addExact_eq]
    exact (Option.map_bind ..).symm
  simp only [addNode, pluralBranch, exactly, addCategory_eq, Option.getD_map, inner, told]
  cases (exactCount? (scope.count name)).bind fun key => exact.lookup key with
  | some body => rfl
  | none =>
      simp only [Option.map_none]
      split
      · rfl
      · rfl

/-- Branches by a text add the branch that is chosen. -/
theorem addNode_select (name : String) (cases : List (String × List MessageNode))
    (other : List MessageNode) :
    scope.addNode output (.select name cases other) =
      scope.addNodes output (scope.selectBranch name cases other) := by
  simp only [addNode, addCase_eq, selectBranch]
  cases scope.selector? name with
  | none => rfl
  | some key =>
    simp only [Option.bind_some]
    cases cases.lookup key with
    | none => rfl
    | some body => rfl

end Adding

section Chosen

variable (scope : MessageScope) (output : MessageOutput) (name : String) (ordinal : Bool)
  (exact : List (Int × List MessageNode))
  (categories : List (PluralCategory × List MessageNode)) (cases : List (String × List MessageNode))
  (other : List MessageNode)

theorem mem_getD_lookup {κ : Type} [DecidableEq κ] (key : κ) (branches : List (κ × Message)) :
    (branches.lookup key).getD other ∈ branches.map Prod.snd ++ [other] := by
  cases found : branches.lookup key with
  | none => simp
  | some body =>
      exact List.mem_append_left _ (List.mem_map_of_mem (Keyed.mem_of_lookup found))

theorem pluralBranch_mem_bodies :
    (scope.pluralBranch output name ordinal exact categories other).2 ∈
      (MessageNode.plural name ordinal exact categories other).bodies := by
  unfold pluralBranch
  simp only
  split
  · next body found =>
      rcases Option.bind_eq_some_iff.mp found with ⟨key, -, listed⟩
      exact List.mem_append_left _ (List.mem_map_of_mem (Keyed.mem_of_lookup listed))
  · split
    · exact List.mem_append_right _ (mem_getD_lookup ..)
    · exact List.mem_append_right _ (mem_getD_lookup ..)

theorem selectBranch_mem_bodies :
    scope.selectBranch name cases other ∈ (MessageNode.select name cases other).bodies := by
  unfold selectBranch
  cases scope.selector? name with
  | none => exact List.mem_append_right _ (List.mem_singleton.mpr rfl)
  | some key => exact mem_getD_lookup other key cases

/-- Changing the messages of all branches by a count changes the one that is chosen. -/
theorem pluralBranch_map (change : Message → Message) :
    scope.pluralBranch output name ordinal
        (exact.map fun branch => (branch.1, change branch.2))
        (categories.map fun branch => (branch.1, change branch.2)) (change other) =
      ((scope.pluralBranch output name ordinal exact categories other).1,
        change (scope.pluralBranch output name ordinal exact categories other).2) := by
  have exactly : ((exactCount? (scope.count name)).bind fun key =>
      (exact.map fun branch => (branch.1, change branch.2)).lookup key) =
        ((exactCount? (scope.count name)).bind fun key => exact.lookup key).map change := by
    simp only [Keyed.lookup_map]
    exact (Option.map_bind ..).symm
  simp only [pluralBranch, exactly]
  cases (exactCount? (scope.count name)).bind fun key => exact.lookup key with
  | some body => rfl
  | none =>
      simp only [Option.map_none, Keyed.lookup_map, Option.getD_map]
      cases ordinal <;> rfl

theorem selectBranch_map (change : Message → Message) :
    scope.selectBranch name (cases.map fun branch => (branch.1, change branch.2)) (change other) =
      change (scope.selectBranch name cases other) := by
  simp only [selectBranch, Keyed.lookup_map]
  cases scope.selector? name with
  | none => rfl
  | some key => exact Option.getD_map change other (cases.lookup key)

end Chosen

end MessageScope

end LocalizedText
