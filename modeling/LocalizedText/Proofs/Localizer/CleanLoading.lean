import LocalizedText.Proofs.Dictionary.Completeness
import LocalizedText.Proofs.Localizer.Interleaving

/-!
# Loading without reports

A localizer that checks what it loads reports on each incoming dictionary alone. As long as there was
nothing to report, its whole dictionary is complete: a complete dictionary stays complete when a
complete one is merged into it or takes its place, and no other step touches it. Then no lookup ever
finds plural forms without a text, whichever rules choose among them, and neither does a lookup that
goes on with an older dictionary, because that one was complete too.
-/

namespace LocalizedText

namespace Localizer

theorem isUnresolved_of_render {localizer : Localizer} {lookup : Lookup} {dictionary : Dictionary}
    {reason : MissingReason} (failed : (localizer.render lookup dictionary).1 = .error reason) :
    lookup.IsUnresolved localizer.rules localizer.settings.fallbackLocale dictionary reason := by
  have outcome := (localizer.render_cases lookup dictionary).2
  rw [failed] at outcome
  exact Lookup.pattern_eq_error_iff.mp outcome

/-- What is told about a lookup is the reason why it has no text by the present dictionary. -/
theorem isUnresolved_of_missing {localizer : Localizer} {lookup : Lookup} {entry : MissingEntry}
    (told : (localizer.answer lookup).1.missing = some entry) :
    lookup.IsUnresolved localizer.rules localizer.settings.fallbackLocale localizer.dictionary
      entry.reason := by
  unfold answer at told
  rcases localizer.begin_cases lookup with ⟨results, -, begun | ⟨text, begun, -⟩⟩
  · rw [begun] at told
    simp only at told
    cases rendered : { localizer with results }.render lookup localizer.dictionary with
    | mk outcome rest =>
        rw [rendered] at told
        cases outcome with
        | ok text => cases text <;> cases told
        | error reason =>
            have unresolved := isUnresolved_of_render (congrArg Prod.fst rendered)
            simp only at told
            split at told
            · cases told
              exact unresolved
            · cases told
  · rw [begun] at told
    cases told

end Localizer

namespace SharedLocalizer

/-- The report that a step returns, if it loads something. -/
def report? (shared : SharedLocalizer) : SharedStep → Option ValidationReport
  | .add incoming => some (shared.localizer.add incoming).1
  | .replace incoming => some (shared.localizer.replace incoming).1
  | _ => none

/-- The reports that steps return, in their order. -/
def reports (shared : SharedLocalizer) : List SharedStep → List ValidationReport
  | [] => []
  | step :: rest => (shared.report? step).toList ++ (shared.advance step).reports rest

/-- A localizer checks what it loads, and its dictionary is complete. -/
structure IsClean (shared : SharedLocalizer) : Prop where
  validating : shared.localizer.settings.validateOnLoad = true
  complete : shared.localizer.dictionary.IsComplete

variable {shared : SharedLocalizer}

theorem isComplete_of_check {settings : Settings} {dictionary : Dictionary}
    (validating : settings.validateOnLoad = true)
    (clean : Localizer.check settings dictionary = {}) : dictionary.IsComplete := by
  rw [Localizer.check, if_pos validating] at clean
  exact Dictionary.validate_eq_empty_iff.mp clean

theorem IsClean.advance (clean : shared.IsClean) (step : SharedStep)
    (unreported : ∀ report ∈ shared.report? step, report = {}) : (shared.advance step).IsClean := by
  cases change : step.isChange with
  | false =>
      rcases shared.localizer_perform change with ⟨messages, results, used⟩
      refine ⟨?_, ?_⟩
      · rw [SharedLocalizer.advance, used]
        exact clean.validating
      · rw [SharedLocalizer.advance, used]
        exact clean.complete
  | true =>
      cases step with
      | add incoming =>
          have checked := isComplete_of_check clean.validating (unreported _ rfl)
          exact ⟨clean.validating, clean.complete.merge checked⟩
      | replace incoming =>
          have checked := isComplete_of_check clean.validating (unreported _ rfl)
          exact ⟨clean.validating, checked⟩
      | _ => cases change

/-- As long as nothing is reported, the dictionary stays complete. -/
theorem IsClean.run (clean : shared.IsClean) (steps : List SharedStep)
    (unreported : ∀ report ∈ shared.reports steps, report = {}) : (shared.run steps).IsClean := by
  induction steps generalizing shared with
  | nil => exact clean
  | cons step rest inductionHypothesis =>
      rw [reports] at unreported
      apply inductionHypothesis
      · apply clean.advance step
        intro report member
        exact unreported report (List.mem_append_left _ (Option.mem_toList.mpr member))
      · intro report member
        exact unreported report (List.mem_append_right _ member)

theorem reports_append (shared : SharedLocalizer) (front back : List SharedStep) :
    shared.reports (front ++ back) = shared.reports front ++ (shared.run front).reports back := by
  induction front generalizing shared with
  | nil => rfl
  | cons step rest inductionHypothesis =>
      rw [List.cons_append, reports, reports, inductionHypothesis, List.append_assoc]
      rfl

/-- By a complete dictionary no lookup finds plural forms without a text. -/
theorem not_isUnresolved_incompletePlural {dictionary : Dictionary}
    (complete : dictionary.IsComplete) (rules : PluralRules) (fallback : String)
    (lookup : Lookup) :
    ¬lookup.IsUnresolved rules fallback dictionary .incompletePlural := by
  rintro (_ | ⟨supplied, category, other⟩)
  have isComplete := complete.of_resolveIn? supplied.1
  simp [PluralForms.isComplete, other] at isComplete

/--
As long as a localizer that checks what it loads has nothing to report on its first dictionary and on
any dictionary that is added or takes its place, its dictionary is complete at every moment. No
lookup comes to its end without a text for the category of a count, and no request at any moment is
told of such a text.
-/
theorem no_incompletePlural_of_clean (settings : Settings) (rules : PluralRules)
    (source : NumberSource) (dictionary : Dictionary) (listening : Bool)
    (validating : settings.validateOnLoad = true)
    (clean : (Localizer.ofParts settings dictionary rules source.formatter?
      listening).1.report = {})
    (steps : List SharedStep)
    (allClean : ∀ report ∈ (ofLocalizer (Localizer.ofParts settings dictionary rules
      source.formatter? listening).1).reports steps, report = {}) :
    let start := ofLocalizer
      (Localizer.ofParts settings dictionary rules source.formatter? listening).1
    (∀ moment, (start.dictionaryAfter steps moment).validate = {}) ∧
      (∀ ended ∈ (start.run steps).ended, ended.outcome ≠ .error .incompletePlural) ∧
      ∀ moment request entry,
        ((start.run (steps.take moment)).localizer.request request).1.missing = some entry →
          entry.reason ≠ .incompletePlural := by
  intro start
  have startClean : start.IsClean := ⟨validating, isComplete_of_check validating clean⟩
  have isClean (moment : Nat) : (start.run (steps.take moment)).IsClean := by
    apply startClean.run
    intro report member
    apply allClean report
    rw [← List.take_append_drop moment steps, reports_append]
    exact List.mem_append_left _ member
  refine ⟨?_, ?_, ?_⟩
  · intro moment
    exact Dictionary.validate_eq_empty_iff.mpr (isClean moment).complete
  · intro ended member failed
    have serves := Localizer.serves_ofParts settings rules source dictionary dictionary listening
    have sound := isSound_run serves (RecencyCache.remembers_empty _) steps
    have answered := (sound.ended ended member).outcome_eq
    rw [failed] at answered
    exact not_isUnresolved_incompletePlural (isClean ended.began).complete _ _ _
      (Localizer.isUnresolved_of_render answered.symm)
  · intro moment request entry told
    rw [((start.run (steps.take moment)).localizer.request_eq_answer request).1] at told
    have unresolved := Localizer.isUnresolved_of_missing told
    intro incomplete
    rw [incomplete] at unresolved
    exact not_isUnresolved_incompletePlural (isClean moment).complete _ _ _ unresolved

/-- The node that is added has category keywords among its names, and meets another node. -/
theorem no_incompletePlural_of_clean_mixed :
    let dictionary : Dictionary :=
      ⟨[("en",
        [("items", .plural { one := some "one item", other := some "items" }),
          ("nav", .node [("home", .text "Home")])])]⟩
    let incoming : Dictionary :=
      ⟨[("en", [("nav", .node [("one", .text "First"), ("other", .node [])])])]⟩
    let steps : List SharedStep :=
      [.add incoming, .begin (.countText "en" "items" (.ofNat 2) []), .render 0]
    let start := ofLocalizer (Localizer.ofParts {} dictionary {} none true).1
    (({} : Settings).validateOnLoad = true ∧ start.localizer.report = {} ∧
        ∀ report ∈ start.reports steps, report = {}) ∧
      (∀ moment, (start.dictionaryAfter steps moment).validate = {}) ∧
      (∀ ended ∈ (start.run steps).ended, ended.outcome ≠ .error .incompletePlural) ∧
      ∀ moment request entry,
        ((start.run (steps.take moment)).localizer.request request).1.missing = some entry →
          entry.reason ≠ .incompletePlural := by
  intro dictionary incoming steps start
  have clean : start.localizer.report = {} := by
    apply Dictionary.validate_eq_empty_iff.mpr
    simp [dictionary, Dictionary.IsComplete, Entries.IsComplete, Entry.IsComplete,
      Entries.areComplete, PluralForms.isComplete]
    decide
  have incomingClean : incoming.validate = {} := by
    apply Dictionary.validate_eq_empty_iff.mpr
    simp [incoming, Dictionary.IsComplete, Entries.IsComplete, Entry.IsComplete,
      Entries.areComplete]
    decide
  have allClean : ∀ report ∈ start.reports steps, report = {} := by
    intro report member
    have same : report = (start.localizer.add incoming).1 := by
      simpa [steps, reports, report?] using member
    rw [same]
    exact incomingClean
  exact ⟨⟨rfl, clean, allClean⟩,
    no_incompletePlural_of_clean {} {} .own dictionary true rfl clean steps allClean⟩

end SharedLocalizer

end LocalizedText
