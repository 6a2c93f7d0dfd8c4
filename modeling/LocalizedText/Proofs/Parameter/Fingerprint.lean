import LocalizedText.Proofs.Json.Text
import LocalizedText.Proofs.Message.Rendering

/-!
# Fingerprints of parameters

The text that stands for parameters in keys determines the JSON values that stand for them, and
these determine all that texts see of the parameters. So what was filled in or formatted for some
parameters may be given out for any others with the same fingerprint, although fingerprints forget
differences: numbers that are not finite and dates look like their texts, and all that has no text
looks alike.
-/

namespace LocalizedText

namespace Parameters

variable {left right : Parameters}

theorem membersToJson_of_fingerprint (same : left.fingerprint = right.fingerprint) :
    ParameterValue.membersToJson left = ParameterValue.membersToJson right := by
  have nonempty (members : List (String × Json)) : "" ≠ (Json.object members).render := by
    intro empty
    have characters := congrArg String.toList empty
    simp [Json.render] at characters
  unfold fingerprint at same
  cases left with
  | nil =>
      cases right with
      | nil => rfl
      | cons _ _ => exact absurd same (nonempty _)
  | cons _ _ =>
      cases right with
      | nil => exact absurd same.symm (nonempty _)
      | cons _ _ => exact Json.object.inj (Json.render_injective same)

theorem indistinguishable_of_fingerprint (same : left.fingerprint = right.fingerprint) :
    left.Indistinguishable right :=
  indistinguishable_of_membersToJson (membersToJson_of_fingerprint same)

end Parameters

/-- Indistinguishable parameters fill in a template with the same texts. -/
theorem Template.fill_congr {left right : Parameters} (same : left.Indistinguishable right)
    (style : BraceStyle) (template : String) :
    Template.fill style template left = Template.fill style template right := by
  have parts : Template.fillPart style left = Template.fillPart style right := by
    funext part
    cases part with
    | literal text => rfl
    | placeholder body =>
        simp only [Template.fillPart, Template.resolve?_congr same]
    | tail text => rfl
  unfold Template.fill
  rw [parts]

/-- A formatter is left in the same state by indistinguishable parameters. -/
theorem MessageFormatter.format_congr {left right : Parameters}
    (same : left.Indistinguishable right) (formatter : MessageFormatter) (text locale : String) :
    (formatter.format text left locale).1 = (formatter.format text right locale).1 ∧
      (formatter.format text left locale).2.1 = (formatter.format text right locale).2.1 := by
  have message : (formatter.read text).1 = (formatter.read text).1 := rfl
  rcases MessageFormatter.format_related FormatterBisimulation.eq same message rfl rfl rfl locale
    with ⟨texts, numbers, ordinals⟩
  have after (parameters : Parameters) : (formatter.format text parameters locale).2.1 =
      { (formatter.read text).2.1 with
        numbers := (formatter.format text parameters locale).2.1.numbers
        ordinals := (formatter.format text parameters locale).2.1.ordinals } := rfl
  refine ⟨texts, ?_⟩
  rw [after left, after right, numbers, ordinals]

/--
Parameters with the same fingerprint cannot be told apart: they fill in every template with the same
text, and every formatter gives the same text for every message, or returns for neither, and is left
in the same state.
-/
theorem Parameters.eq_of_fingerprint {left right : Parameters}
    (same : left.fingerprint = right.fingerprint) :
    (∀ style template, Template.fill style template left = Template.fill style template right) ∧
      ∀ (formatter : MessageFormatter) (message locale : String),
        (formatter.format message left locale).1 = (formatter.format message right locale).1 ∧
          (formatter.format message left locale).2.1 =
            (formatter.format message right locale).2.1 := by
  have indistinguishable := Parameters.indistinguishable_of_fingerprint same
  constructor
  · intro style template
    exact Template.fill_congr indistinguishable style template
  · intro formatter message locale
    exact formatter.format_congr indistinguishable message locale

/-- Numbers that are not finite, dates and the kinds of values without a text are forgotten. -/
theorem Parameters.eq_of_fingerprint_order :
    let left : Parameters :=
      [("order", .bag [("date", .date ⟨0, 0⟩), ("note", .withoutText .null),
        ("total", .number .notANumber)])]
    let right : Parameters :=
      [("order", .bag [("date", .text "1970-01-01T00:00:00.000Z"), ("note", .withoutText .array),
        ("total", .text "NaN")])]
    left.fingerprint = right.fingerprint ∧
      Template.fill .double "\x7b\x7border.total\x7d\x7d" left =
        Template.fill .double "\x7b\x7border.total\x7d\x7d" right ∧
      ((default : MessageFormatter).format "\x7border.total, number\x7d" left "en").1 =
        ((default : MessageFormatter).format "\x7border.total, number\x7d" right "en").1 := by
  intro left right
  have same : left.fingerprint = right.fingerprint := by decide
  rcases Parameters.eq_of_fingerprint same with ⟨filled, formatted⟩
  exact ⟨same, filled _ _, (formatted _ _ _).1⟩

end LocalizedText
