import LocalizedText.Proofs.Localizer.Interleaving

/-!
# Answers from the fallback

What a locale itself does not have is answered as if the fallback had been asked for it. The entry is
the fallback's, and with it comes the locale whose rules choose among plural forms and whose words
numbers are written with; the locale that was asked for only counts for finding the entry.

The two requests are remembered under different keys, and one of them may have been answered long
ago. Both have the outcome by the present dictionary all the same, so it is enough to compare these.
-/

namespace LocalizedText

def TextRequest.inLocale (locale : String) : TextRequest → TextRequest
  | .text _ key parameters => .text locale key parameters
  | .plain _ key => .plain locale key
  | .countText _ key count parameters => .countText locale key count parameters
  | .messageText _ key parameters => .messageText locale key parameters

@[simp]
theorem TextRequest.key_inLocale (locale : String) (request : TextRequest) :
    (request.inLocale locale).key = request.key := by
  cases request <;> rfl

namespace Lookup

variable {lookup : Lookup} {rules : PluralRules} {fallback : String} {dictionary : Dictionary}

theorem pattern_of_absent (absent : dictionary.resolveIn? lookup.locale lookup.key = none) :
    lookup.pattern rules fallback dictionary =
      { lookup with locale := fallback }.pattern rules fallback dictionary := by
  unfold pattern
  rw [Dictionary.resolve?_of_absent absent]

/-- A pattern comes with the locale that supplied it. -/
theorem exists_supplies_of_pattern {pattern : Pattern}
    (found : lookup.pattern rules fallback dictionary = .ok pattern) :
    ∃ content, dictionary.Supplies lookup.locale fallback lookup.key pattern.locale content := by
  unfold Lookup.pattern at found
  split at found
  · cases found
  · next text locale resolved =>
      cases found
      exact ⟨_, Dictionary.resolve?_eq_some_iff.mp resolved⟩
  · next forms locale resolved =>
      split at found
      · cases found
        exact ⟨_, Dictionary.resolve?_eq_some_iff.mp resolved⟩
      · cases found

end Lookup

namespace Localizer

variable {localizer : Localizer}

theorem render_of_absent {lookup : Lookup} {dictionary : Dictionary}
    (absent : dictionary.resolveIn? lookup.locale lookup.key = none) :
    (localizer.render lookup dictionary).1 =
      (localizer.render { lookup with locale := localizer.settings.fallbackLocale }
        dictionary).1 := by
  unfold render
  simp only [Lookup.pattern_of_absent absent]
  split <;> rfl

theorem lookupOf_inLocale {locale : String} (named : locale.isEmpty = false)
    (request : TextRequest) :
    localizer.lookupOf (request.inLocale locale) =
      { localizer.lookupOf request with locale } := by
  cases request <;>
    simp [TextRequest.inLocale, lookupOf, Lookup.ofCount, effectiveLocale, named]

/-- A locale has a text for a key when the key resolves in this locale alone. -/
theorem has_eq_false_iff {request : TextRequest} :
    (localizer.has request.locale request.key).1 = false ↔
      localizer.dictionary.resolveIn? (localizer.lookupOf request).locale
        (localizer.lookupOf request).key = none := by
  rw [localizer.locale_lookupOf, localizer.key_lookupOf, has, Option.isSome_eq_false_iff,
    Option.isNone_iff_eq_none, Dictionary.resolve?_eq_none_iff, and_self]

end Localizer

/-- Usable settings name a fallback. -/
theorem Settings.fallbackLocale_of_validated {settings : Settings}
    (usable : settings.validated = .ok settings) : settings.fallbackLocale.isEmpty = false := by
  by_contra unnamed
  have blank : settings.fallbackLocale = "" := by
    simpa [String.isEmpty_iff] using unnamed
  have problem : SettingsProblem.blankFallbackLocale ∈ settings.problems := by
    simp [problems, blank, isBlankTag]
  unfold Settings.validated at usable
  split at usable
  · next noProblems =>
      rw [List.isEmpty_iff.mp noProblems] at problem
      cases problem
  · cases usable

namespace SharedLocalizer

variable {made : Localizer} {native : Bool} {past : Nat → Dictionary} {limit : Nat}
  {shared : SharedLocalizer}

/-- A request that is made alone is answered by its outcome by the present dictionary. -/
theorem IsSound.request (sound : IsSound made native past limit shared)
    (new : made.Serves native made) (request : TextRequest) :
    (shared.localizer.request request).1.text =
      ((made.render (made.lookupOf request) shared.localizer.dictionary).1.toOption).getD
        (some request.key) := by
  have asked : shared.localizer.lookupOf request = made.lookupOf request := by
    rw [sound.serves.lookupOf_eq]
  rw [(shared.localizer.request_eq_answer request).1, asked, ← made.key_lookupOf request]
  unfold Localizer.answer
  rcases shared.localizer.begin_cases (made.lookupOf request) with
    ⟨results, stays, begun | ⟨text, begun, isRight⟩⟩
  · have serves := (sound.use sound.serves.messages (stays _ sound.results)).serves
    have outcome := (serves.render new (made.isCounted_lookupOf request)
      shared.localizer.dictionary).1
    rw [begun, ← outcome]
    simp only
    generalize { shared.localizer with results }.render (made.lookupOf request)
      shared.localizer.dictionary = rendered
    rcases rendered with ⟨reason | _ | text, after, events⟩ <;> rfl
  · have isOutcome := isRight _ sound.results
    rw [begun, isOutcome.2 request rfl]
    rfl

/--
After any steps of several callers, a request for what its locale does not have itself is answered
with the text that the same request has in the fallback, and returns exactly if that does; and the
pattern that it finds, if there is one, was supplied by the fallback.
-/
theorem request_eq_fallback (settings : Settings) (usable : settings.validated = .ok settings)
    (rules : PluralRules) (source : NumberSource) (dictionary : Dictionary) (listening : Bool)
    (steps : List SharedStep) (request : TextRequest)
    (absent : (((ofLocalizer (Localizer.ofParts settings dictionary rules source.formatter?
      listening).1).run steps).localizer.has request.locale request.key).1 = false) :
    let localizer := ((ofLocalizer (Localizer.ofParts settings dictionary rules source.formatter?
      listening).1).run steps).localizer
    (localizer.request request).1.text =
        (localizer.request (request.inLocale settings.fallbackLocale)).1.text ∧
      ∀ pattern,
        (localizer.lookupOf request).pattern rules settings.fallbackLocale localizer.dictionary =
            .ok pattern →
          pattern.locale = settings.fallbackLocale := by
  intro localizer
  have new := Localizer.serves_ofParts settings rules source dictionary dictionary listening
  have sound := isSound_run new (RecencyCache.remembers_empty _) steps
  have unresolved := Localizer.has_eq_false_iff.mp absent
  refine ⟨?_, ?_⟩
  · have named := Settings.fallbackLocale_of_validated usable
    rw [sound.serves.lookupOf_eq] at unresolved
    rw [sound.request new, sound.request new, Localizer.lookupOf_inLocale named,
      Localizer.render_of_absent unresolved, TextRequest.key_inLocale]
    rfl
  · intro pattern found
    rcases Lookup.exists_supplies_of_pattern found with ⟨content, supplied⟩
    exact supplied.eq_fallback unresolved

/-- Five are many in Russian, but French, which has the forms, knows no such category. -/
theorem request_eq_fallback_forms :
    let settings : Settings := { fallbackLocale := "fr" }
    let dictionary : Dictionary := ⟨[("ru", [("home", .text "Glavnaya")])]⟩
    let french : Dictionary :=
      ⟨[("fr",
        [("items",
          .plural { one := some "un article", other := some "\x7b\x7bcount\x7d\x7d articles" })])]⟩
    let request : TextRequest := .countText "ru" "items" (.ofNat 5) []
    let localizer :=
      ((ofLocalizer (Localizer.ofParts settings dictionary {} none true).1).run
        [.add french]).localizer
    settings.validated = .ok settings ∧ (localizer.has "ru" "items").1 = false ∧
      (localizer.request request).1.text =
        (localizer.request (.countText "fr" "items" (.ofNat 5) [])).1.text ∧
      ∀ pattern,
        (localizer.lookupOf request).pattern {} "fr" localizer.dictionary = .ok pattern →
          pattern.locale = "fr" := by
  intro settings dictionary french request localizer
  have usable : settings.validated = .ok settings := if_pos (by decide)
  have absent : (localizer.has "ru" "items").1 = false := by rfl
  exact ⟨usable, absent,
    request_eq_fallback settings usable {} .own dictionary true [.add french] request absent⟩

end SharedLocalizer

end LocalizedText
