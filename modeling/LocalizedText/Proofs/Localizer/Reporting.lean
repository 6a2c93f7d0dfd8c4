import LocalizedText.Proofs.Dictionary.Resolution
import LocalizedText.Proofs.Localizer.Transparency

/-!
# Lookups without a text

A lookup has no text when neither its locale nor the fallback has anything for its key, or when the
plural forms that are found lack the text for its category and the one for all others. Whoever
listens is told of such a lookup every time it is made, and of no other: what stands in the cache of
results under some key was found, so a lookup that finds nothing is never answered from there.

The invariant that carries this speaks of the dictionary of the moment. A change of the dictionary
forgets all results, and what is remembered later was found in the new one. The formatters do not
matter, so the number formatter, which others may use as well, is left in any state between calls.
-/

namespace LocalizedText

namespace Lookup

/-- A lookup has no text by a dictionary, for a reason. -/
inductive IsUnresolved (rules : PluralRules) (fallback : String) (dictionary : Dictionary)
    (lookup : Lookup) : MissingReason → Prop where
  | notFound (own : dictionary.resolveIn? lookup.locale lookup.key = none)
      (other : dictionary.resolveIn? fallback lookup.key = none) :
      IsUnresolved rules fallback dictionary lookup .notFound
  | incompletePlural {supplier : String} {forms : PluralForms}
      (supplied : dictionary.Supplies lookup.locale fallback lookup.key supplier (.plural forms))
      (category : forms.get? (lookup.mode.category rules supplier) = none)
      (other : forms.other = none) :
      IsUnresolved rules fallback dictionary lookup .incompletePlural

variable {rules : PluralRules} {fallback : String} {dictionary : Dictionary} {lookup : Lookup}
  {reason : MissingReason}

theorem pattern_of_isUnresolved (unresolved : lookup.IsUnresolved rules fallback dictionary reason) :
    lookup.pattern rules fallback dictionary = .error reason := by
  unfold pattern
  cases unresolved with
  | notFound own other => simp [Dictionary.resolve?_eq_none_iff.mpr ⟨own, other⟩]
  | incompletePlural supplied category other =>
      simp [Dictionary.resolve?_eq_some_iff.mpr supplied, PluralForms.select, category, other]

theorem isUnresolved_of_pattern
    (failed : lookup.pattern rules fallback dictionary = .error reason) :
    lookup.IsUnresolved rules fallback dictionary reason := by
  unfold pattern at failed
  split at failed
  · next missing =>
      cases failed
      rcases Dictionary.resolve?_eq_none_iff.mp missing with ⟨own, other⟩
      exact .notFound own other
  · cases failed
  · next forms supplier found =>
      split at failed
      · cases failed
      · next unselected =>
          cases failed
          have supplied := Dictionary.resolve?_eq_some_iff.mp found
          unfold PluralForms.select at unselected
          cases category : forms.get? (lookup.mode.category rules supplier) with
          | some text => simp [category] at unselected
          | none =>
              have other : forms.other = none := by simpa [category] using unselected
              exact .incompletePlural supplied category other

/-- A lookup fails to find a pattern exactly when it has no text, and for the same reason. -/
theorem pattern_eq_error_iff :
    lookup.pattern rules fallback dictionary = .error reason ↔
      lookup.IsUnresolved rules fallback dictionary reason :=
  ⟨isUnresolved_of_pattern, pattern_of_isUnresolved⟩

end Lookup

/-- The locale that a request names, which may be empty. -/
def TextRequest.locale : TextRequest → String
  | .text locale _ _ => locale
  | .plain locale _ => locale
  | .countText locale _ _ _ => locale
  | .messageText locale _ _ => locale

def TextRequest.key : TextRequest → String
  | .text _ key _ => key
  | .plain _ key => key
  | .countText _ key _ _ => key
  | .messageText _ key _ => key

/-- What happens to a localizer between two requests. -/
inductive LocalizerStep where
  | call (call : LocalizerCall)
  | formatNumber (locale : String) (value : Double) (options : NumberOptions)
  /-- Somebody else used the number formatter, and left it in some state. -/
  | shareNumbers (numbers : NumberFormatter)

def LocalizerStep.change (dictionary : Dictionary) : LocalizerStep → Dictionary
  | .call performed => performed.change dictionary
  | _ => dictionary

namespace Localizer

def advance (localizer : Localizer) : LocalizerStep → Localizer
  | .call call => localizer.perform call
  | .formatNumber locale value options => (localizer.formatNumber locale value options).2.1
  | .shareNumbers numbers => { localizer with messages := { localizer.messages with numbers } }

/--
A localizer to which somebody listens, with the settings, rules and dictionary, that remembers a
result only under keys whose lookups all find a pattern.
-/
structure RemembersFound (settings : Settings) (rules : PluralRules) (dictionary : Dictionary)
    (localizer : Localizer) : Prop where
  settings_eq : localizer.settings = settings
  rules_eq : localizer.rules = rules
  dictionary_eq : localizer.dictionary = dictionary
  listening_eq : localizer.listening = true
  results : localizer.results.entries.Remembers fun key _ =>
    ∀ lookup : Lookup, lookup.IsCounted → lookup.resultKey = key →
      ∀ reason, ¬lookup.IsUnresolved rules settings.fallbackLocale dictionary reason

variable {settings : Settings} {rules : PluralRules} {dictionary : Dictionary}
  {localizer : Localizer} {lookup : Lookup}

theorem remembersFound_ofParts (settings : Settings) (rules : PluralRules)
    (dictionary : Dictionary) (numbers : Option NumberFormatter) :
    (ofParts settings dictionary rules numbers true).1.RemembersFound settings rules
      dictionary where
  settings_eq := rfl
  rules_eq := rfl
  dictionary_eq := rfl
  listening_eq := rfl
  results := RecencyCache.remembers_empty _

/-- Rendering gives a text or the reason why there is none, and only touches the formatters. -/
theorem render_cases (localizer : Localizer) (lookup : Lookup) (dictionary : Dictionary) :
    (∃ messages, (localizer.render lookup dictionary).2.1 = { localizer with messages }) ∧
      match (localizer.render lookup dictionary).1 with
      | .ok _ => ∃ pattern,
          lookup.pattern localizer.rules localizer.settings.fallbackLocale dictionary = .ok pattern
      | .error reason =>
          lookup.pattern localizer.rules localizer.settings.fallbackLocale dictionary =
            .error reason := by
  unfold render
  simp only
  split
  · next pattern found =>
      refine ⟨?_, pattern, found⟩
      cases lookup.mode with
      | message => exact ⟨_, rfl⟩
      | singular => exact ⟨localizer.messages, rfl⟩
      | plural count => exact ⟨localizer.messages, rfl⟩
  · next reason failed => exact ⟨⟨localizer.messages, rfl⟩, failed⟩

theorem RemembersFound.withMessages
    (remembers : localizer.RemembersFound settings rules dictionary)
    (messages : MessageFormatter) :
    { localizer with messages }.RemembersFound settings rules dictionary :=
  ⟨remembers.settings_eq, remembers.rules_eq, remembers.dictionary_eq, remembers.listening_eq,
    remembers.results⟩

theorem RemembersFound.finish (remembers : localizer.RemembersFound settings rules dictionary)
    {pending : PendingLookup} {pattern : Pattern} (counted : pending.lookup.IsCounted)
    (found : pending.lookup.pattern rules settings.fallbackLocale dictionary = .ok pattern)
    (text : String) :
    (localizer.finish pending text).RemembersFound settings rules dictionary := by
  unfold Localizer.finish
  split
  · refine ⟨remembers.settings_eq, remembers.rules_eq, remembers.dictionary_eq,
      remembers.listening_eq, ?_⟩
    apply remembers.results.set
    intro lookup lookupCounted same reason unresolved
    have failed := Lookup.pattern_eq_error_iff.mpr unresolved
    rw [Lookup.pattern_of_resultKey lookupCounted counted same, found] at failed
    cases failed
  · exact remembers

/--
A lookup begins with a remembered text only if it is resolved; otherwise it goes on with the present
dictionary, and the remembered results stay as they are.
-/
theorem RemembersFound.begin (remembers : localizer.RemembersFound settings rules dictionary)
    (counted : lookup.IsCounted) :
    (localizer.begin lookup).2.RemembersFound settings rules dictionary ∧
      match (localizer.begin lookup).1 with
      | .ok _ => ∀ reason, ¬lookup.IsUnresolved rules settings.fallbackLocale dictionary reason
      | .error pending =>
          pending.lookup = lookup ∧ pending.dictionary = dictionary ∧
            (localizer.begin lookup).2.results.entries = localizer.results.entries := by
  have before := remembers.results.get lookup.resultKey
  have unchanged : (localizer.results.entries.get lookup.resultKey).1 = none →
      (localizer.results.entries.get lookup.resultKey).2 = localizer.results.entries := by
    intro missing
    rcases remembers.results with ⟨pairs, holds, -, -⟩
    cases found : pairs.lookup lookup.resultKey with
    | none => rw [holds.get_missing found]
    | some text =>
        rw [(holds.get found).1] at missing
        cases missing
  unfold Localizer.begin ResultCache.get
  generalize localizer.results.entries.get lookup.resultKey = got at before unchanged ⊢
  rcases got with ⟨found, entries⟩
  have after (hits misses : Nat) :
      { localizer with results := ⟨entries, hits, misses⟩ }.RemembersFound settings rules
        dictionary :=
    ⟨remembers.settings_eq, remembers.rules_eq, remembers.dictionary_eq, remembers.listening_eq,
      before.2⟩
  cases found with
  | some text => exact ⟨after _ _, before.1 text rfl lookup counted rfl⟩
  | none => exact ⟨after _ _, rfl, remembers.dictionary_eq, unchanged rfl⟩

/--
Making a lookup without a text is told, with its reason, and leaves the remembered results as they
are; making any other lookup is not told.
-/
theorem RemembersFound.answer (remembers : localizer.RemembersFound settings rules dictionary)
    (counted : lookup.IsCounted) :
    (localizer.answer lookup).2.1.RemembersFound settings rules dictionary ∧
      (∀ reason, lookup.IsUnresolved rules settings.fallbackLocale dictionary reason →
        (localizer.answer lookup).1 = ⟨some lookup.key, some (lookup.missing reason)⟩ ∧
          (localizer.answer lookup).2.1.results.entries = localizer.results.entries) ∧
      ((∀ reason, ¬lookup.IsUnresolved rules settings.fallbackLocale dictionary reason) →
        (localizer.answer lookup).1.missing = none) := by
  rcases remembers.begin counted with ⟨next, start⟩
  unfold Localizer.answer
  generalize localizer.begin lookup = begun at next start ⊢
  rcases begun with ⟨pending | text, begun⟩
  · rcases pending with ⟨lookup, dictionary, generation⟩
    rcases start with ⟨rfl, rfl, unchanged⟩
    rcases begun.render_cases lookup dictionary with ⟨⟨messages, rendered⟩, outcome⟩
    rw [next.rules_eq, next.settings_eq] at outcome
    simp only
    generalize begun.render lookup dictionary = result at rendered outcome ⊢
    -- Rendering only fails for want of a pattern, and only then it is told.
    rcases result with ⟨reason | text?, after, events⟩
    · simp only at rendered outcome
      subst rendered
      have unresolved := Lookup.pattern_eq_error_iff.mp outcome
      refine ⟨next.withMessages messages, ?_, ?_⟩
      · intro given givenUnresolved
        have same := Lookup.pattern_eq_error_iff.mpr givenUnresolved
        have listening : begun.listening = true := next.listening_eq
        rw [outcome] at same
        cases same
        simpa [listening] using unchanged
      · intro resolved
        exact absurd unresolved (resolved reason)
    · simp only at rendered outcome
      subst rendered
      rcases outcome with ⟨pattern, found⟩
      have isFound (reason : MissingReason) :
          ¬lookup.IsUnresolved rules settings.fallbackLocale dictionary reason := by
        intro unresolved
        rw [Lookup.pattern_eq_error_iff.mpr unresolved] at found
        cases found
      cases text? with
      | none =>
          exact ⟨next.withMessages messages,
            fun reason unresolved => absurd unresolved (isFound reason), fun _ => rfl⟩
      | some text =>
          exact ⟨(next.withMessages messages).finish counted found text,
            fun reason unresolved => absurd unresolved (isFound reason), fun _ => rfl⟩
  · refine ⟨next, ?_, ?_⟩
    · intro reason unresolved
      exact absurd unresolved (start reason)
    · intro _
      rfl

theorem RemembersFound.change (remembers : localizer.RemembersFound settings rules dictionary)
    (incoming : Dictionary) (report : ValidationReport) :
    (localizer.change incoming report).RemembersFound settings rules incoming :=
  ⟨remembers.settings_eq, remembers.rules_eq, rfl, remembers.listening_eq,
    RecencyCache.remembers_empty _⟩

theorem RemembersFound.perform (remembers : localizer.RemembersFound settings rules dictionary)
    (call : LocalizerCall) :
    (localizer.perform call).RemembersFound settings rules (call.change dictionary) := by
  cases call with
  | request request =>
      have answered := remembers.answer (localizer.isCounted_lookupOf request)
      rw [← (localizer.request_eq_answer request).2] at answered
      exact answered.1
  | formatMessage locale message parameters => exact remembers.withMessages _
  | add incoming =>
      rw [← remembers.dictionary_eq]
      exact remembers.change _ _
  | replace incoming => exact remembers.change _ _
  | clearCache =>
      exact ⟨remembers.settings_eq, remembers.rules_eq, remembers.dictionary_eq,
        remembers.listening_eq, RecencyCache.remembers_empty _⟩
  | resetStats =>
      exact ⟨remembers.settings_eq, remembers.rules_eq, remembers.dictionary_eq,
        remembers.listening_eq, remembers.results⟩

theorem RemembersFound.advance (remembers : localizer.RemembersFound settings rules dictionary)
    (step : LocalizerStep) :
    (localizer.advance step).RemembersFound settings rules (step.change dictionary) := by
  cases step with
  | call call => exact remembers.perform call
  | formatNumber locale value options => exact remembers.withMessages _
  | shareNumbers numbers => exact remembers.withMessages _

/-- Whatever happens to a localizer, it remembers results only of lookups that find a pattern. -/
theorem RemembersFound.foldl_advance
    (remembers : localizer.RemembersFound settings rules dictionary)
    (steps : List LocalizerStep) :
    (steps.foldl Localizer.advance localizer).RemembersFound settings rules
      (steps.foldl LocalizerStep.change dictionary) := by
  induction steps generalizing localizer dictionary with
  | nil => exact remembers
  | cons step rest inductionHypothesis =>
      apply inductionHypothesis
      exact remembers.advance step

theorem key_lookupOf (localizer : Localizer) (request : TextRequest) :
    (localizer.lookupOf request).key = request.key := by
  cases request <;> rfl

theorem locale_lookupOf (localizer : Localizer) (request : TextRequest) :
    (localizer.lookupOf request).locale = localizer.effectiveLocale request.locale := by
  cases request <;> rfl

/--
After any steps of a new localizer, a request that has no text by the dictionary of that moment is
told once, with the locale that it is for and the reason; it is answered by its key, and the
remembered results and their order of use stay. A request that has a text is not told.
-/
theorem told_after_steps (settings : Settings) (rules : PluralRules) (dictionary : Dictionary)
    (numbers : Option NumberFormatter) (steps : List LocalizerStep) (request : TextRequest) :
    let localizer := steps.foldl advance (ofParts settings dictionary rules numbers true).1
    let current := steps.foldl LocalizerStep.change dictionary
    let locale :=
      if request.locale.isEmpty then settings.defaultLocale else request.locale
    (∀ reason,
      (localizer.lookupOf request).IsUnresolved rules settings.fallbackLocale current reason →
        (localizer.request request).1.missing = some ⟨locale, request.key, reason⟩ ∧
          (localizer.request request).1.text = some request.key ∧
          (localizer.request request).2.1.results.entries = localizer.results.entries) ∧
      ((∀ reason,
        ¬(localizer.lookupOf request).IsUnresolved rules settings.fallbackLocale current reason) →
          (localizer.request request).1.missing = none) := by
  intro localizer current locale
  have remembers : localizer.RemembersFound settings rules current :=
    (remembersFound_ofParts settings rules dictionary numbers).foldl_advance steps
  rcases remembers.answer (localizer.isCounted_lookupOf request) with ⟨-, unresolved, resolved⟩
  rcases localizer.request_eq_answer request with ⟨answer, after⟩
  have asked : (localizer.lookupOf request).locale = locale := by
    rw [localizer.locale_lookupOf, effectiveLocale, remembers.settings_eq]
  rw [answer, after]
  refine ⟨?_, resolved⟩
  intro reason isUnresolved
  rcases unresolved reason isUnresolved with ⟨told, unchanged⟩
  rw [told, Lookup.missing, asked, localizer.key_lookupOf]
  exact ⟨rfl, rfl, unchanged⟩

end Localizer

end LocalizedText
