import LocalizedText.Proofs.Cache.InsertionQueue
import LocalizedText.Proofs.Number.Faithful

/-!
# The plans that a number formatter keeps

Which plans a number formatter makes follows from what it is called for. It makes one when it uses
locale data, a call needs a plan that is not among the last ones it made, and the locale and the
options resolve. What it keeps are the plans made last since it was cleared, as many as there is
room for, in the order in which they were made. A plan that is still kept is used again without any
change, and nothing that is written shows whether a plan was kept or made.
-/

namespace LocalizedText

/-- What a number formatter can be called for. -/
inductive NumberCall where
  | format (value : Double) (locale : String) (options : NumberOptions)
  | currency (value : Double) (locale code : String)
  | percent (value : Double) (locale : String)
  | compact (value : Double) (locale : String)
  | unit (value : Double) (locale name : String)
  | range (first last : Double) (locale : String) (options : NumberOptions)
  | clear

namespace NumberCall

/--
What a call writes if it returns, the formatter after it, and what is told. Clearing writes the
empty text.
-/
def perform (formatter : NumberFormatter) :
    NumberCall → Option String × NumberFormatter × List Event
  | format value locale options => formatter.format value locale options
  | currency value locale code => formatter.format value locale (.ofCurrency code)
  | percent value locale => formatter.format value locale .percent
  | compact value locale => formatter.format value locale .compact
  | unit value locale name => formatter.format value locale (.ofUnit name)
  | range first last locale options => formatter.formatRange first last locale options
  | clear => (some "", formatter.clear, [])

/--
The locale and the options that a call needs a plan for. A value that is not finite needs none,
unless it is an end of a range.
-/
def signature? : NumberCall → Option (String × NumberOptions)
  | format value locale options => ofFinite value (locale, options)
  | currency value locale code => ofFinite value (locale, .ofCurrency code)
  | percent value locale => ofFinite value (locale, .percent)
  | compact value locale => ofFinite value (locale, .compact)
  | unit value locale name => ofFinite value (locale, .ofUnit name)
  | range _ _ locale options => some (locale, options)
  | clear => none
where
  ofFinite (value : Double) (signature : String × NumberOptions) :
      Option (String × NumberOptions) :=
    if value.isFinite then some signature else none

/--
When plans for some signatures were made before, a plan is made for a signature that is needed:
locale data is used, the signature is not among those whose plans are still kept, and it resolves.
-/
def Makes (native : Bool) (capacity : Nat) (made : List (String × NumberOptions))
    (signature : String × NumberOptions) : Prop :=
  native = true ∧ signature ∉ made.rtake capacity ∧
    (NumberPlan.resolve signature.1 signature.2).isOk = true

instance (native : Bool) (capacity : Nat) (made : List (String × NumberOptions))
    (signature : String × NumberOptions) : Decidable (Makes native capacity made signature) :=
  inferInstanceAs (Decidable (_ ∧ _ ∧ _))

/-- The signatures of the plans that were made since the last clearing, after one more call. -/
def made (native : Bool) (capacity : Nat) (before : List (String × NumberOptions))
    (call : NumberCall) : List (String × NumberOptions) :=
  match call with
  | clear => []
  | call =>
      match call.signature? with
      | some signature =>
          if Makes native capacity before signature then before ++ [signature] else before
      | none => before

/-- The signatures of the plans that calls on a new formatter make since the last clearing. -/
def madeByAll (native : Bool) (capacity : Nat) (calls : List NumberCall) :
    List (String × NumberOptions) :=
  calls.foldl (made native capacity) []

end NumberCall

namespace NumberFormatter

/-- A new formatter, which uses locale data or not. -/
def ofMode (native : Bool) (capacity : Nat) : NumberFormatter :=
  if native then ofCapacity capacity else manual

/-- The formatter after calls. -/
def run (formatter : NumberFormatter) (calls : List NumberCall) : NumberFormatter :=
  calls.foldl (fun formatter call => (call.perform formatter).2.1) formatter

/-- It is told that a plan was made. -/
def TellsOfPlan (events : List Event) : Prop :=
  ∃ event ∈ events, event.message = "number formatter compiled"

section Calls

variable {formatter other : NumberFormatter} {native : Bool} {call : NumberCall}

theorem format_of_signature {value : Double} {locale : String} {options : NumberOptions}
    {signature : String × NumberOptions}
    (needed : NumberCall.signature?.ofFinite value (locale, options) = some signature)
    (formatter : NumberFormatter) :
    (formatter.format value locale options).2 =
      (formatter.plan? signature.1 signature.2).2 := by
  unfold NumberCall.signature?.ofFinite at needed
  unfold format
  split at needed
  · next finite =>
      cases needed
      rw [if_pos finite]
  · cases needed

/-- A call leaves the formatter as it is after it was asked for the plan that the call needs. -/
theorem perform_of_signature {signature : String × NumberOptions}
    (needed : call.signature? = some signature) (formatter : NumberFormatter) :
    (call.perform formatter).2 = (formatter.plan? signature.1 signature.2).2 := by
  cases call with
  | format | currency | percent | compact | unit => exact format_of_signature needed formatter
  | range =>
      cases needed
      rfl
  | clear => cases needed

theorem format_of_no_signature {value : Double} {locale : String} {options : NumberOptions}
    (unneeded : NumberCall.signature?.ofFinite value (locale, options) = none)
    (formatter : NumberFormatter) :
    (formatter.format value locale options).2 = (formatter, []) := by
  unfold NumberCall.signature?.ofFinite at unneeded
  unfold format
  split at unneeded
  · cases unneeded
  · next infinite => rw [if_neg infinite]

/-- A call that needs no plan and does not clear the formatter changes nothing. -/
theorem perform_of_no_signature (unneeded : call.signature? = none) (keeps : call ≠ .clear)
    (formatter : NumberFormatter) : (call.perform formatter).2 = (formatter, []) := by
  cases call with
  | format | currency | percent | compact | unit => exact format_of_no_signature unneeded formatter
  | range => cases unneeded
  | clear => exact absurd rfl keeps

/-- What a call writes does not depend on what faithful formatters remember. -/
theorem IsFaithful.perform_eq (faithful : formatter.IsFaithful native)
    (otherFaithful : other.IsFaithful native) (call : NumberCall) :
    (call.perform formatter).1 = (call.perform other).1 := by
  have same (value : Double) (locale : String) (options : NumberOptions) :
      (formatter.format value locale options).1 = (other.format value locale options).1 := by
    rw [(faithful.format value locale options).1, (otherFaithful.format value locale options).1]
  cases call with
  | format value locale options => exact same value locale options
  | currency value locale code => exact same value locale _
  | percent value locale => exact same value locale _
  | compact value locale => exact same value locale _
  | unit value locale name => exact same value locale _
  | range first last locale options =>
      have left := (faithful.formatRange first last locale options).1
      have right := (otherFaithful.formatRange first last locale options).1
      exact left.trans right.symm
  | clear => rfl

theorem isFaithful_ofMode (native : Bool) (capacity : Nat) :
    (ofMode native capacity).IsFaithful native := by
  cases native with
  | true => exact isFaithful_ofCapacity capacity
  | false => exact isFaithful_manual

end Calls

/-- The formatter is faithful and has the plans that were made last, as many as there is room for. -/
structure Keeps (native : Bool) (capacity : Nat) (formatter : NumberFormatter)
    (made : List (String × NumberOptions)) : Prop where
  faithful : formatter.IsFaithful native
  capacity_eq : formatter.plans.capacity = if native then capacity else 0
  holds : ∃ pairs, formatter.plans.Holds pairs ∧ pairs.map Prod.fst = made.rtake capacity

variable {native : Bool} {capacity : Nat} {formatter : NumberFormatter}
  {made : List (String × NumberOptions)}

theorem keeps_of_forgotten (faithful : formatter.IsFaithful native)
    (forgotten : formatter.plans = .empty (if native then capacity else 0)) :
    formatter.Keeps native capacity [] where
  faithful := faithful
  capacity_eq := by rw [forgotten, InsertionCache.empty]
  holds := ⟨[], forgotten ▸ InsertionCache.holds_empty _, by simp⟩

theorem keeps_ofMode (native : Bool) (capacity : Nat) :
    (ofMode native capacity).Keeps native capacity [] := by
  apply keeps_of_forgotten (isFaithful_ofMode native capacity)
  cases native with
  | true => rfl
  | false => rfl

theorem Keeps.clear (keeps : formatter.Keeps native capacity made) :
    formatter.clear.Keeps native capacity [] := by
  apply keeps_of_forgotten keeps.faithful.clear
  rw [← keeps.capacity_eq]
  rfl

theorem Keeps.order_eq (keeps : formatter.Keeps native capacity made) :
    formatter.plans.order = made.rtake capacity := by
  rcases keeps.holds with ⟨pairs, holds, keys⟩
  rw [holds.order, keys]

theorem Keeps.mem_order_iff (keeps : formatter.Keeps native capacity made)
    {signature : String × NumberOptions} :
    signature ∈ formatter.plans.order ↔ ∃ plan, formatter.plans.get? signature = some plan := by
  rcases keeps.holds with ⟨pairs, holds, -⟩
  exact holds.mem_order_iff

theorem Keeps.missing_iff (keeps : formatter.Keeps native capacity made)
    {signature : String × NumberOptions} :
    formatter.plans.get? signature = none ↔ signature ∉ made.rtake capacity := by
  rw [← keeps.order_eq, keeps.mem_order_iff, ← Option.isSome_iff_exists,
    Option.not_isSome_iff_eq_none]

theorem Keeps.plan?_of_makes (keeps : formatter.Keeps native capacity made)
    {signature : String × NumberOptions}
    (makes : NumberCall.Makes native capacity made signature) :
    ∃ plan, NumberPlan.resolve signature.1 signature.2 = .ok plan ∧
      (formatter.plan? signature.1 signature.2).2.1 =
        { formatter with plans := (formatter.plans.insert signature plan).2 } ∧
      TellsOfPlan (formatter.plan? signature.1 signature.2).2.2 := by
  rcases makes with ⟨native_eq, forgotten, resolves⟩
  have missing : formatter.plans.get? (signature.1, signature.2) = none :=
    keeps.missing_iff.mpr forgotten
  unfold plan?
  rw [if_pos (keeps.faithful.native_eq.trans native_eq), missing]
  cases resolved : NumberPlan.resolve signature.1 signature.2 with
  | ok plan => exact ⟨plan, rfl, rfl, _, List.mem_singleton_self _, rfl⟩
  | error error =>
      rw [resolved] at resolves
      cases resolves

theorem Keeps.plan?_of_not_makes (keeps : formatter.Keeps native capacity made)
    {signature : String × NumberOptions}
    (unmade : ¬NumberCall.Makes native capacity made signature) :
    (formatter.plan? signature.1 signature.2).2.1 = formatter ∧
      ¬TellsOfPlan (formatter.plan? signature.1 signature.2).2.2 := by
  unfold plan?
  split
  · next usesLocaleData =>
      split
      · exact ⟨rfl, by simp [TellsOfPlan]⟩
      · next missing =>
          cases resolved : NumberPlan.resolve signature.1 signature.2 with
          | ok plan =>
              exact absurd ⟨keeps.faithful.native_eq.symm.trans usesLocaleData,
                keeps.missing_iff.mp missing, by rw [resolved]; rfl⟩ unmade
          | error error => exact ⟨rfl, by simp [TellsOfPlan, unplannedEvent]⟩
  · exact ⟨rfl, by simp [TellsOfPlan]⟩

/-- What is not among the last ones does not come back when one more is put behind them. -/
theorem rtake_append_singleton {α : Type} (count : Nat) (list : List α) (last : α) :
    (list.rtake count ++ [last]).rtake count = (list ++ [last]).rtake count := by
  cases count with
  | zero => simp
  | succ count =>
      rw [List.rtake_concat_succ, List.rtake_concat_succ]
      simp [List.rtake_eq_reverse_take_reverse, List.take_take]

/-- A plan that is made is kept behind the others. -/
theorem Keeps.insert (keeps : formatter.Keeps native capacity made)
    {signature : String × NumberOptions}
    (makes : NumberCall.Makes native capacity made signature) {plan : NumberPlan}
    (resolved : NumberPlan.resolve signature.1 signature.2 = .ok plan) :
    { formatter with plans := (formatter.plans.insert signature plan).2 }.Keeps native capacity
      (made ++ [signature]) := by
  rcases makes with ⟨rfl, forgotten, -⟩
  have missing := keeps.missing_iff.mpr forgotten
  rcases keeps with ⟨faithful, rfl, pairs, holds, keys⟩
  have bounded : pairs.length ≤ formatter.plans.capacity := by
    have lengths := congrArg List.length keys
    simp only [List.length_map, List.rtake, List.length_drop] at lengths
    omega
  refine ⟨⟨faithful.native_eq, faithful.plans.insert resolved⟩, by simp, _,
    holds.insert_new bounded ?_ plan, ?_⟩
  · rw [← holds.knows.lookup]
    exact missing
  · have newKeys : ((pairs ++ [(signature, plan)]).rtake formatter.plans.capacity).map Prod.fst =
        (pairs.map Prod.fst ++ [signature]).rtake formatter.plans.capacity := by
      simp [List.rtake, List.map_drop]
    rw [newKeys, keys, rtake_append_singleton]

/-- No call makes the formatter keep anything but the plans that were made last. -/
theorem Keeps.perform (keeps : formatter.Keeps native capacity made) (call : NumberCall) :
    (call.perform formatter).2.1.Keeps native capacity (call.made native capacity made) := by
  unfold NumberCall.made
  split
  · exact keeps.clear
  · next isCall =>
      cases needed : call.signature? with
      | none =>
          rw [perform_of_no_signature needed isCall]
          exact keeps
      | some signature =>
          simp only [perform_of_signature needed]
          split
          · next makes =>
              rcases keeps.plan?_of_makes makes with ⟨plan, resolved, after, -⟩
              rw [after]
              exact keeps.insert makes resolved
          · next unmade =>
              rw [(keeps.plan?_of_not_makes unmade).1]
              exact keeps

theorem keeps_run (native : Bool) (capacity : Nat) (calls : List NumberCall) :
    ((ofMode native capacity).run calls).Keeps native capacity
      (NumberCall.madeByAll native capacity calls) := by
  induction calls using List.reverseRecOn with
  | nil => exact keeps_ofMode native capacity
  | append_singleton calls call inductionHypothesis =>
      rw [run, NumberCall.madeByAll, List.foldl_concat, List.foldl_concat]
      exact inductionHypothesis.perform call

/-- It is told of a plan by the call that makes it. -/
theorem Keeps.tellsOfPlan_iff (keeps : formatter.Keeps native capacity made) (call : NumberCall) :
    TellsOfPlan (call.perform formatter).2.2 ↔
      ∃ signature ∈ call.signature?, NumberCall.Makes native capacity made signature := by
  cases needed : call.signature? with
  | none =>
      have silent : (call.perform formatter).2.2 = [] := by
        by_cases isClear : call = .clear
        · subst isClear
          rfl
        · rw [perform_of_no_signature needed isClear]
      simp [silent, TellsOfPlan]
  | some signature =>
      rw [perform_of_signature needed]
      by_cases makes : NumberCall.Makes native capacity made signature
      · rcases keeps.plan?_of_makes makes with ⟨-, -, -, told⟩
        simp [told, makes]
      · simp [(keeps.plan?_of_not_makes makes).2, makes]

/--
Whatever a number formatter was called for, the next call returns exactly if it returns on a new
formatter, and writes what it writes there; when its plan is still kept, nothing changes, and when it
makes a plan, this is told. The plans that are kept are those that the calls made last since the
formatter was cleared, in this order, and as many as its capacity allows; each of them is the one
that its signature resolves to.
-/
theorem transparent_run (native : Bool) (capacity : Nat) (calls : List NumberCall) :
    let formatter := (ofMode native capacity).run calls
    let plans := formatter.plans
    let made := NumberCall.madeByAll native capacity calls
    (∀ (call : NumberCall) (other : Nat),
      (call.perform formatter).1 = (call.perform (ofMode native other)).1) ∧
      (∀ call : NumberCall, ∀ signature ∈ call.signature?, signature ∈ plans.order →
        (call.perform formatter).2.1 = formatter) ∧
      (∀ call : NumberCall, TellsOfPlan (call.perform formatter).2.2 ↔
        ∃ signature ∈ call.signature?, NumberCall.Makes native capacity made signature) ∧
      plans.order = made.rtake capacity ∧ plans.order.Nodup ∧
      plans.size = plans.order.length ∧ plans.size ≤ capacity ∧
      ∀ signature, signature ∈ plans.order ↔ ∃ plan, plans.get? signature = some plan ∧
        NumberPlan.resolve signature.1 signature.2 = .ok plan := by
  intro formatter plans made
  have keeps : formatter.Keeps native capacity made := keeps_run native capacity calls
  rcases keeps.holds with ⟨pairs, holds, -⟩
  refine ⟨?_, ?_, keeps.tellsOfPlan_iff, keeps.order_eq, ?_, holds.size_eq, ?_, ?_⟩
  · intro call other
    exact keeps.faithful.perform_eq (isFaithful_ofMode native other) call
  · intro call signature needed present
    rw [perform_of_signature needed]
    apply (keeps.plan?_of_not_makes ?_).1
    rintro ⟨-, forgotten, -⟩
    exact forgotten (keeps.order_eq ▸ present)
  · rw [holds.order]
    exact holds.distinct
  · rw [holds.size_eq, keeps.order_eq, List.rtake, List.length_drop]
    omega
  · intro signature
    rw [keeps.mem_order_iff]
    constructor
    · rintro ⟨plan, found⟩
      exact ⟨plan, found, keeps.faithful.plans signature plan found⟩
    · rintro ⟨plan, found, -⟩
      exact ⟨plan, found⟩

end NumberFormatter

end LocalizedText
