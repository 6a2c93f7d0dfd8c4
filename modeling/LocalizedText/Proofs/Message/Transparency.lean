import LocalizedText.Proofs.Message.Composition
import LocalizedText.Proofs.Number.PlanHistory

/-!
# Message formatters that remember

A message formatter remembers messages, ordinal rules and, in a number formatter that others may use
as well, number plans. Nothing of this shows: whatever was read and formatted before, a message is
read as it stands and formatted as by a formatter that is new. A message that is formatted without
end by one of the two is so by the other.
-/

namespace LocalizedText

namespace MessageFormatter

variable {native : Bool} {rules : PluralRules} {formatter : MessageFormatter}

/-- The messages are remembered in a cache of some capacity, if they are remembered at all. -/
def IsCapped (formatter : MessageFormatter) (capacity : Nat) : Prop :=
  ∀ messages ∈ formatter.messages, messages.capacity = capacity

variable {capacity : Nat}

theorem isCapped_ofParts (numbers : NumberFormatter) (rules : PluralRules) (capacity : Nat) :
    (ofParts numbers rules capacity).IsCapped capacity := by
  intro messages present
  simp only [ofParts] at present
  split at present
  · cases present
  · cases present
    rfl

theorem IsCapped.read (capped : formatter.IsCapped capacity) (text : String) :
    (formatter.read text).2.1.IsCapped capacity := by
  unfold MessageFormatter.read
  split
  · exact capped
  · next messages present =>
      have known := capped messages present
      have after := messages.capacity_get text
      split
      · next message found =>
          rw [found] at after
          rintro _ ⟨⟩
          exact after.trans known
      · next found =>
          rw [found] at after
          rintro _ ⟨⟩
          exact (RecencyCache.capacity_set ..).trans (after.trans known)

theorem IsCapped.perform (capped : formatter.IsCapped capacity) (call : MessageFormatterCall) :
    (formatter.perform call).IsCapped capacity := by
  cases call with
  | format text parameters locale => exact capped.read text
  | read text => exact capped.read text
  | clear =>
      intro messages present
      rcases Option.map_eq_some_iff.mp present with ⟨before, isBefore, rfl⟩
      exact capped before isBefore
  | formatNumber value locale options => exact capped
  | formatRange first last locale options => exact capped
  | clearNumbers => exact capped

theorem IsCapped.foldl_perform (capped : formatter.IsCapped capacity)
    (calls : List MessageFormatterCall) :
    (calls.foldl MessageFormatter.perform formatter).IsCapped capacity := by
  induction calls generalizing formatter with
  | nil => exact capped
  | cons call rest inductionHypothesis => exact inductionHypothesis (capped.perform call)

theorem IsFaithful.remembered_le (faithful : formatter.IsFaithful native rules)
    (capped : formatter.IsCapped capacity) : formatter.remembered ≤ capacity := by
  unfold remembered
  split
  · exact Nat.zero_le capacity
  · next messages present =>
      rw [← capped messages present]
      exact (faithful.messages messages present).size_le

/-- A formatter is faithful whatever it was used for, and whoever else used its number formatter. -/
theorem isFaithful_after_calls (native : Bool) (planCapacity capacity : Nat) (rules : PluralRules)
    (earlier : List NumberCall) (calls : List MessageFormatterCall) :
    (calls.foldl perform
      (ofParts ((NumberFormatter.ofMode native planCapacity).run earlier) rules
        capacity)).IsFaithful native rules := by
  apply IsFaithful.foldl_perform
  apply isFaithful_ofParts
  exact (NumberFormatter.keeps_run native planCapacity earlier).faithful

/--
Whatever was read and formatted before, and whoever else used the number formatter, a message is
formatted as by a new formatter with the same rules that remembers no messages: the call returns
exactly if it returns there, and then with the same text. A message is read as it stands, and no
more messages are remembered than there is room for.
-/
theorem transparent_after_calls (native : Bool) (planCapacity capacity : Nat) (rules : PluralRules)
    (earlier : List NumberCall) (calls : List MessageFormatterCall) :
    let numbers := (NumberFormatter.ofMode native planCapacity).run earlier
    let formatter := calls.foldl perform (ofParts numbers rules capacity)
    (∀ text parameters locale (otherCapacity : Nat),
      let new := ofParts (.ofMode native otherCapacity) rules 0
      (formatter.format text parameters locale).1 = (new.format text parameters locale).1) ∧
      (∀ text, (formatter.read text).1 = Message.ofText text) ∧
      formatter.remembered ≤ capacity := by
  intro numbers formatter
  have faithful : formatter.IsFaithful native rules :=
    isFaithful_after_calls native planCapacity capacity rules earlier calls
  have capped : formatter.IsCapped capacity :=
    (isCapped_ofParts numbers rules capacity).foldl_perform calls
  refine ⟨?_, fun text => (faithful.read text).1, faithful.remembered_le capped⟩
  intro text parameters locale otherCapacity new
  have newFaithful : new.IsFaithful native rules :=
    isFaithful_ofParts (NumberFormatter.isFaithful_ofMode native otherCapacity) rules 0
  exact faithful.format_eq newFaithful (.refl parameters) text locale

end MessageFormatter

end LocalizedText
