import LocalizedText.Proofs.Dictionary.Coverage
import LocalizedText.Proofs.Localizer.CleanLoading
import LocalizedText.Proofs.Localizer.Fallback

/-!
# Coverage and lookups

Three ways to learn that there is nothing for a key agree with one another. The coverage lists the key
as missing in a locale; neither the locale nor the fallback has it; and a request for it is told of as
not found. The first two look into the dictionary anew. The third may be answered from the results, but
what stands there is the outcome by the present dictionary, so a key without an outcome is never found
there, whatever several callers did before.
-/

namespace LocalizedText

theorem Dictionary.target_of_mem_resolveEvents {dictionary : Dictionary}
    {locale fallback key : String} {event : Event}
    (told : event ∈ dictionary.resolveEvents locale fallback key) :
    event.target = "lexis.resolve" := by
  unfold Dictionary.resolveEvents at told
  split_ifs at told
  · cases told
  · rw [List.mem_singleton.mp told]
  · rw [List.mem_singleton.mp told]

theorem Template.target_of_mem_fillEvents {style : BraceStyle} {template : String}
    {parameters : Parameters} {event : Event}
    (told : event ∈ Template.fillEvents style template parameters) :
    event.target = "lexis.interpolate" := by
  rcases List.mem_flatMap.mp told with ⟨part, -, told⟩
  cases part with
  | placeholder body =>
      simp only [Template.resolveEvents] at told
      split at told
      · cases told
      · split at told
        · rw [List.mem_singleton.mp told]
        · split at told
          · rw [List.mem_singleton.mp told]
          · cases told
  | literal text => cases told
  | tail text => cases told

namespace Lookup

variable {lookup : Lookup} {rules : PluralRules} {fallback : String} {dictionary : Dictionary}

/-- What is told of a lookup without a text names the reason. -/
theorem reason_of_missingEvent {reason other : MissingReason}
    (same : lookup.missingEvent fallback reason = lookup.missingEvent fallback other) :
    reason = other := by
  cases reason <;> cases other <;> simp_all [missingEvent, MissingReason.name]

theorem isUnresolved_notFound_iff :
    lookup.IsUnresolved rules fallback dictionary .notFound ↔
      dictionary.resolveIn? lookup.locale lookup.key = none ∧
        dictionary.resolveIn? fallback lookup.key = none := by
  constructor
  · rintro (⟨own, other⟩ | -)
    exact ⟨own, other⟩
  · rintro ⟨own, other⟩
    exact .notFound own other

end Lookup

namespace Localizer

variable {localizer : Localizer} {lookup : Lookup} {dictionary : Dictionary}
  {reason : MissingReason}

/-- Rendering fails exactly for lookups without a text, and for the same reason. -/
theorem render_eq_error_iff : (localizer.render lookup dictionary).1 = .error reason ↔
    lookup.IsUnresolved localizer.rules localizer.settings.fallbackLocale dictionary reason := by
  refine ⟨isUnresolved_of_render, ?_⟩
  intro unresolved
  have failed := Lookup.pattern_of_isUnresolved unresolved
  unfold render
  simp only [failed]

/-- Rendering a plain text tells of a missing translation exactly when it fails. -/
theorem missingEvent_mem_render (singular : lookup.mode = .singular) :
    lookup.missingEvent localizer.settings.fallbackLocale reason ∈
        (localizer.render lookup dictionary).2.2 ↔
      (localizer.render lookup dictionary).1 = .error reason := by
  have notResolving : lookup.missingEvent localizer.settings.fallbackLocale reason ∉
      dictionary.resolveEvents lookup.locale localizer.settings.fallbackLocale lookup.key := by
    intro told
    have target := Dictionary.target_of_mem_resolveEvents told
    simp [Lookup.missingEvent] at target
  unfold render
  simp only
  split
  · next pattern found =>
      have notFilling : lookup.missingEvent localizer.settings.fallbackLocale reason ∉
          Template.fillEvents localizer.settings.placeholder pattern.text lookup.parameters := by
        intro told
        have target := Template.target_of_mem_fillEvents told
        simp [Lookup.missingEvent] at target
      simp [fill, singular, notResolving, notFilling]
  · next failed found =>
      simp only [List.mem_append, List.mem_singleton, Except.error.injEq, notResolving, false_or]
      constructor
      · intro told
        exact (Lookup.reason_of_missingEvent told).symm
      · rintro rfl
        rfl

theorem effectiveLocale_of_ne (localizer : Localizer) {locale : String} (named : locale ≠ "") :
    localizer.effectiveLocale locale = locale := by
  rw [effectiveLocale, if_neg (by simpa [String.isEmpty_iff] using named)]

theorem lookupOf_text (localizer : Localizer) {locale : String} (named : locale ≠ "")
    (key : String) (parameters : Parameters) :
    localizer.lookupOf (.text locale key parameters) =
      { mode := .singular, locale, key, parameters } := by
  rw [lookupOf, localizer.effectiveLocale_of_ne named]

/-- A locale that has a name is asked itself whether it has a key. -/
theorem has_eq_false_iff_resolveIn? {locale key : String} (named : locale ≠ "") :
    (localizer.has locale key).1 = false ↔ localizer.dictionary.resolveIn? locale key = none := by
  have absent := @has_eq_false_iff localizer (.plain locale key)
  rwa [locale_lookupOf, key_lookupOf, TextRequest.locale, TextRequest.key,
    localizer.effectiveLocale_of_ne named] at absent

/-- A lookup that goes on is told of as its text is rendered. -/
theorem answer_of_begin {begun : Localizer} {generation : Nat}
    (goesOn : localizer.begin lookup = (.error ⟨lookup, dictionary, generation⟩, begun))
    (reason : MissingReason) :
    (localizer.answer lookup).2.2 = (begun.render lookup dictionary).2.2 ∧
      (begun.listening = true →
        ((localizer.answer lookup).1.missing = some (lookup.missing reason) ↔
          (begun.render lookup dictionary).1 = .error reason)) := by
  rcases begun.render_cases lookup dictionary with ⟨⟨messages, rendered⟩, -⟩
  unfold answer
  rw [goesOn]
  simp only
  generalize begun.render lookup dictionary = result at rendered ⊢
  rcases result with ⟨failed | _ | text, after, events⟩
  · simp only at rendered
    subst rendered
    refine ⟨rfl, ?_⟩
    intro listening
    simp [listening, Lookup.missing]
  · refine ⟨rfl, ?_⟩
    simp
  · refine ⟨rfl, ?_⟩
    simp

end Localizer

namespace SharedLocalizer

variable {made : Localizer} {native : Bool} {past : Nat → Dictionary} {limit : Nat}
  {shared : SharedLocalizer}

/-- A request for a plain text is told of exactly when there is none by the present dictionary. -/
theorem IsSound.missing_iff (sound : IsSound made native past limit shared)
    (request : TextRequest) (reason : MissingReason)
    (singular : (shared.localizer.lookupOf request).mode = .singular) :
    let localizer := shared.localizer
    let lookup := localizer.lookupOf request
    let answered := localizer.answer lookup
    let unresolved := lookup.IsUnresolved localizer.rules localizer.settings.fallbackLocale
      localizer.dictionary reason
    (lookup.missingEvent localizer.settings.fallbackLocale reason ∈ answered.2.2 ↔ unresolved) ∧
      (localizer.listening = true →
        (answered.1.missing = some (lookup.missing reason) ↔ unresolved)) := by
  intro localizer lookup answered unresolved
  rcases localizer.begin_cases lookup with ⟨results, -, begun | ⟨text, begun, isRight⟩⟩
  · rcases Localizer.answer_of_begin begun reason with ⟨events, missing⟩
    have failed : ({ localizer with results }.render lookup localizer.dictionary).1 =
        .error reason ↔ unresolved := Localizer.render_eq_error_iff
    rw [← failed]
    refine ⟨?_, missing⟩
    rw [events]
    exact Localizer.missingEvent_mem_render singular
  · -- What is remembered is the outcome by the present dictionary, so there is one.
    have resolved : ¬unresolved := by
      intro isUnresolved
      have outcome := (isRight _ sound.results).2 request (by rw [← sound.serves.lookupOf_eq])
      rw [← sound.serves.lookupOf_eq] at outcome
      have failed : (made.render lookup localizer.dictionary).1 = .error reason := by
        apply Localizer.render_eq_error_iff.mpr
        rw [← sound.serves.rules_eq, ← sound.serves.settings_eq]
        exact isUnresolved
      rw [failed] at outcome
      cases outcome
    simp only [answered, Localizer.answer, begun]
    simp [resolved]

/-- A request is told of as not found when neither the locale nor the fallback has the key. -/
theorem IsSound.notFound_iff (sound : IsSound made native past limit shared) {locale : String}
    (named : locale ≠ "") (key : String) (parameters : Parameters) :
    let localizer := shared.localizer
    let fallback := localizer.settings.fallbackLocale
    let request := TextRequest.text locale key parameters
    let answered := localizer.request request
    let absent := localizer.dictionary.resolveIn? locale key = none ∧
      localizer.dictionary.resolveIn? fallback key = none
    ((localizer.lookupOf request).missingEvent fallback .notFound ∈ answered.2.2 ↔ absent) ∧
      (localizer.listening = true →
        (answered.1.missing = some ⟨locale, key, .notFound⟩ ↔ absent)) := by
  intro localizer fallback request answered absent
  have asked : localizer.lookupOf request = { mode := .singular, locale, key, parameters } :=
    localizer.lookupOf_text named key parameters
  have unresolved : (localizer.lookupOf request).IsUnresolved localizer.rules fallback
      localizer.dictionary .notFound ↔ absent := by
    rw [asked]
    exact Lookup.isUnresolved_notFound_iff
  rcases sound.missing_iff request .notFound rfl with ⟨event, entry⟩
  refine ⟨event.trans unresolved, ?_⟩
  intro listening
  have told : some ((localizer.lookupOf request).missing .notFound) =
      some ⟨locale, key, .notFound⟩ := by rw [asked, Lookup.missing]
  rw [← told]
  exact (entry listening).trans unresolved

theorem listening_perform (shared : SharedLocalizer) (step : SharedStep) :
    (shared.perform step).localizer.listening = shared.localizer.listening := by
  cases change : step.isChange with
  | false =>
      rcases shared.localizer_perform change with ⟨messages, results, used⟩
      rw [used]
  | true =>
      cases step with
      | add incoming => rfl
      | replace incoming => rfl
      | _ => cases change

theorem listening_run (shared : SharedLocalizer) (steps : List SharedStep) :
    (shared.run steps).localizer.listening = shared.localizer.listening := by
  induction steps using List.reverseRecOn with
  | nil => rfl
  | append_singleton steps step inductionHypothesis =>
      rw [run_concat, ← inductionHypothesis]
      exact listening_perform _ step

/--
After any steps of several callers, a key of the dictionary is listed as missing in a locale that has
a name exactly when neither the locale nor the fallback has it, and exactly when a request for it is
told of as not found. There is one report on each locale; what is present and what is missing make up
all keys; what is missing stands in ascending order without repetitions, and is missing in the
fallback too.
-/
theorem coverage_after_steps (settings : Settings) (usable : settings.validated = .ok settings)
    (rules : PluralRules) (source : NumberSource) (dictionary : Dictionary) (listening : Bool)
    (steps : List SharedStep) :
    let localizer := ((ofLocalizer (Localizer.ofParts settings dictionary rules source.formatter?
      listening).1).run steps).localizer
    let current := localizer.dictionary
    let fallback := settings.fallbackLocale
    let report := localizer.coverage.1
    (∀ coverage ∈ report.locales, coverage.locale ≠ "" → ∀ key ∈ current.allKeys,
      (key ∈ coverage.missing ↔
        (localizer.has coverage.locale key).1 = false ∧ (localizer.has fallback key).1 = false) ∧
      ∀ parameters,
        let request := TextRequest.text coverage.locale key parameters
        let answered := localizer.request request
        (key ∈ coverage.missing ↔
          (localizer.lookupOf request).missingEvent fallback .notFound ∈ answered.2.2) ∧
        (listening = true →
          (key ∈ coverage.missing ↔
            answered.1.missing = some ⟨coverage.locale, key, .notFound⟩))) ∧
    (report.locales.map (·.locale) = current.tags ∧ report.total = current.allKeys.length) ∧
    ∀ coverage ∈ report.locales,
      coverage.present + coverage.missing.length = report.total ∧
        coverage.missing.Pairwise (· < ·) ∧
        ∀ other ∈ report.locales, other.locale = fallback →
          ∀ key ∈ coverage.missing, key ∈ other.missing := by
  have new := Localizer.serves_ofParts settings rules source dictionary dictionary listening
  have sound := isSound_run new (RecencyCache.remembers_empty _) steps
  have listening_eq := listening_run
    (ofLocalizer (Localizer.ofParts settings dictionary rules source.formatter? listening).1) steps
  generalize (ofLocalizer (Localizer.ofParts settings dictionary rules source.formatter?
    listening).1).run steps = shared at sound listening_eq ⊢
  -- No step changes the settings, so the fallback is the one of the beginning.
  obtain rfl : shared.localizer.settings = settings := sound.serves.settings_eq
  intro localizer current fallback report
  refine ⟨?_, ⟨current.map_locale_coverage fallback, rfl⟩, ?_⟩
  · intro coverage member named key known
    rcases Dictionary.mem_locales_coverage.mp member with ⟨locale, -, rfl⟩
    have fallbackNamed : fallback ≠ "" := by
      simpa [String.isEmpty_iff] using Settings.fallbackLocale_of_validated usable
    have listed : key ∈ (current.coverageOf fallback current.allKeys locale).missing ↔
        current.resolveIn? locale key = none ∧ current.resolveIn? fallback key = none :=
      Dictionary.mem_missingKeys.trans (and_iff_right known)
    refine ⟨?_, ?_⟩
    · rw [Localizer.has_eq_false_iff_resolveIn? named,
        Localizer.has_eq_false_iff_resolveIn? fallbackNamed]
      exact listed
    · intro parameters request answered
      rcases sound.notFound_iff named key parameters with ⟨event, entry⟩
      refine ⟨listed.trans event.symm, ?_⟩
      intro listens
      exact listed.trans (entry (listening_eq.trans listens)).symm
  · intro coverage member
    rcases Dictionary.mem_locales_coverage.mp member with ⟨locale, -, rfl⟩
    refine ⟨current.present_add_length_missing fallback _ locale,
      Dictionary.pairwise_missingKeys (current.pairwise_allKeys.imp ne_of_lt), ?_⟩
    intro other otherMember isFallback key missing
    rcases Dictionary.mem_locales_coverage.mp otherMember with ⟨_, -, rfl⟩
    rcases Dictionary.mem_missingKeys.mp missing with ⟨known, -, absent⟩
    obtain rfl := isFallback
    exact Dictionary.mem_missingKeys.mpr ⟨known, absent, absent⟩

/-- German lost the key while it was being looked up, and French does not have it either. -/
theorem coverage_after_steps_cart :
    let settings : Settings := { fallbackLocale := "fr" }
    let before : Dictionary := ⟨[("de", [("cart", .text "Korb")])]⟩
    let after : Dictionary :=
      ⟨[("de", [("home", .text "Start")]), ("en", [("cart", .text "Cart")]),
        ("fr", [("home", .text "Accueil")])]⟩
    let request : TextRequest := .text "de" "cart" []
    let steps : List SharedStep := [.begin request, .replace after]
    let localizer :=
      ((ofLocalizer (Localizer.ofParts settings before {} none true).1).run steps).localizer
    settings.validated = .ok settings ∧
      ∃ coverage ∈ localizer.coverage.1.locales, coverage.locale = "de" ∧
        "cart" ∈ localizer.dictionary.allKeys ∧ "cart" ∈ coverage.missing ∧
        (localizer.request request).1.missing = some ⟨"de", "cart", .notFound⟩ := by
  intro settings before after request steps localizer
  have usable : settings.validated = .ok settings := if_pos (by decide)
  have current : localizer.dictionary = after := rfl
  have own : (localizer.has "de" "cart").1 = false := rfl
  have other : (localizer.has "fr" "cart").1 = false := rfl
  have known : "cart" ∈ localizer.dictionary.allKeys := by
    rw [current]
    refine Dictionary.mem_allKeys.mpr ⟨("en", [("cart", .text "Cart")]), by simp [after], ?_⟩
    simp [Entries.leafKeys, Entries.leafKeysBelow, Entries.leafKeysOf, joinPath]
  rcases coverage_after_steps settings usable {} .own before true steps with
    ⟨agree, ⟨locales, -⟩, -⟩
  have tag : "de" ∈ localizer.dictionary.tags := List.mem_cons_self
  rcases List.mem_map.mp (locales.symm ▸ tag) with ⟨coverage, member, locale⟩
  rcases agree coverage member (by rw [locale]; decide) "cart" known with ⟨absent, told⟩
  rw [locale] at absent told
  have missing := absent.mpr ⟨own, other⟩
  exact ⟨usable, coverage, member, locale, known, missing, ((told []).2 rfl).mp missing⟩

end SharedLocalizer

end LocalizedText
