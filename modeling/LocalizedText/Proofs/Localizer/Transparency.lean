import LocalizedText.Localizer.Answer
import LocalizedText.Proofs.Message.Faithful
import LocalizedText.Proofs.Parameter.Fingerprint

/-!
# Remembering does not show

A localizer answers from its cache of results, from remembered messages, plans and rules, and from a
dictionary that grows and is replaced. None of what it remembers shows in its answers: after any
calls it answers every request like a new localizer with the dictionary of that moment.

Every result that is remembered is the text of every lookup with its key by the present dictionary.
A key has the fingerprint of the parameters in place of the parameters, and no count; both are
enough, since parameters with the same fingerprint look alike and the count is one of them.
-/

namespace LocalizedText

/-- The requests for a text of the dictionary. -/
inductive TextRequest where
  | text (locale key : String) (parameters : Parameters)
  /-- The text of a key without parameters. -/
  | plain (locale key : String)
  | countText (locale key : String) (count : Double) (parameters : Parameters)
  | messageText (locale key : String) (parameters : Parameters)

inductive LocalizerCall where
  | request (request : TextRequest)
  | formatMessage (locale message : String) (parameters : Parameters)
  | add (incoming : Dictionary)
  | replace (incoming : Dictionary)
  | clearCache
  | resetStats

def LocalizerCall.change (dictionary : Dictionary) : LocalizerCall → Dictionary
  | .add incoming => dictionary.merge incoming
  | .replace incoming => incoming
  | _ => dictionary

namespace Localizer

def request (localizer : Localizer) : TextRequest → LookupAnswer × Localizer × List Event
  | .text locale key parameters => localizer.text locale key parameters
  | .plain locale key => localizer.text locale key []
  | .countText locale key count parameters => localizer.countText locale key count parameters
  | .messageText locale key parameters => localizer.messageText locale key parameters

def perform (localizer : Localizer) : LocalizerCall → Localizer
  | .request request => (localizer.request request).2.1
  | .formatMessage locale message parameters =>
      (localizer.formatMessage locale message parameters).2.1
  | .add incoming => (localizer.add incoming).2.1
  | .replace incoming => (localizer.replace incoming).2.1
  | .clearCache => localizer.clearCache.1
  | .resetStats => localizer.resetStats

end Localizer

namespace Lookup

/-- The count of a lookup is finite and one of its parameters. -/
def IsCounted (lookup : Lookup) : Prop :=
  ∀ count, lookup.mode = .plural count →
    count.isFinite = true ∧ lookup.parameters.lookup "count" = some (.number count)

theorem isCounted_ofCount (locale key : String) (count : Double) (parameters : Parameters) :
    (ofCount locale key count parameters).IsCounted := by
  rintro value ⟨⟩
  refine ⟨?_, Keyed.lookup_insert_self _ _ _⟩
  split
  · assumption
  · rfl

variable {left right : Lookup}

/-- What is remembered under the same key was asked for with parameters that look alike. -/
theorem indistinguishable_of_resultKey (same : left.resultKey = right.resultKey) :
    left.parameters.Indistinguishable right.parameters :=
  Parameters.indistinguishable_of_fingerprint (congrArg ResultKey.fingerprint same)

theorem mode_of_resultKey (leftCounted : left.IsCounted) (rightCounted : right.IsCounted)
    (same : left.resultKey = right.resultKey) : left.mode = right.mode := by
  have kinds : left.mode.kind = right.mode.kind := congrArg ResultKey.kind same
  cases leftMode : left.mode with
  | plural leftCount =>
      cases rightMode : right.mode with
      | plural rightCount =>
          rcases leftCounted leftCount leftMode with ⟨leftFinite, leftFound⟩
          rcases rightCounted rightCount rightMode with ⟨rightFinite, rightFound⟩
          have members := Parameters.membersToJson_of_fingerprint
            (congrArg ResultKey.fingerprint same)
          have counts := congrArg (List.lookup "count") members
          rw [ParameterValue.lookup_membersToJson, ParameterValue.lookup_membersToJson, leftFound,
            rightFound] at counts
          simp only [Option.map_some, ParameterValue.toJson, leftFinite, rightFinite, if_true,
            Option.some.injEq, Json.number.injEq, JsonNumber.fractional.injEq] at counts
          rw [counts]
      | singular => simp [leftMode, rightMode, LookupMode.kind] at kinds
      | message => simp [leftMode, rightMode, LookupMode.kind] at kinds
  | singular =>
      cases rightMode : right.mode with
      | singular => rfl
      | plural count => simp [leftMode, rightMode, LookupMode.kind] at kinds
      | message => simp [leftMode, rightMode, LookupMode.kind] at kinds
  | message =>
      cases rightMode : right.mode with
      | message => rfl
      | plural count => simp [leftMode, rightMode, LookupMode.kind] at kinds
      | singular => simp [leftMode, rightMode, LookupMode.kind] at kinds

theorem pattern_of_resultKey (leftCounted : left.IsCounted) (rightCounted : right.IsCounted)
    (same : left.resultKey = right.resultKey) (rules : PluralRules) (fallback : String)
    (dictionary : Dictionary) :
    left.pattern rules fallback dictionary = right.pattern rules fallback dictionary := by
  have locales : left.locale = right.locale := congrArg ResultKey.locale same
  have keys : left.key = right.key := congrArg ResultKey.key same
  unfold pattern
  rw [mode_of_resultKey leftCounted rightCounted same, locales, keys]

end Lookup

namespace Localizer

/-- The text of a lookup by a dictionary, from formatters that remember nothing. -/
def reference (settings : Settings) (rules : PluralRules) (dictionary : Dictionary)
    (lookup : Lookup) : Except MissingReason (Option String) :=
  ((ofParts settings dictionary rules none false).1.render lookup dictionary).1

/--
A localizer with the settings, rules and dictionary whose formatters are faithful, and that
remembers a result only if it is the text of every lookup with its key.
-/
structure IsTransparent (settings : Settings) (rules : PluralRules) (dictionary : Dictionary)
    (localizer : Localizer) : Prop where
  settings_eq : localizer.settings = settings
  rules_eq : localizer.rules = rules
  dictionary_eq : localizer.dictionary = dictionary
  messages : localizer.messages.IsFaithful settings.nativeFormatting rules
  results : localizer.results.entries.Remembers fun key text =>
    ∀ lookup : Lookup, lookup.IsCounted → lookup.resultKey = key →
      reference settings rules dictionary lookup = .ok (some text)

variable {settings : Settings} {rules : PluralRules} {dictionary : Dictionary}
  {localizer : Localizer}

theorem isFaithful_numbersFor (settings : Settings) :
    (numbersFor settings).IsFaithful settings.nativeFormatting := by
  unfold numbersFor
  cases settings.nativeFormatting
  · exact NumberFormatter.isFaithful_manual
  · exact NumberFormatter.isFaithful_ofCapacity _

theorem isTransparent_ofParts (settings : Settings) (rules : PluralRules)
    (dictionary : Dictionary) (listening : Bool) :
    (ofParts settings dictionary rules none listening).1.IsTransparent settings rules
      dictionary where
  settings_eq := rfl
  rules_eq := rfl
  dictionary_eq := rfl
  messages := MessageFormatter.isFaithful_ofParts (isFaithful_numbersFor settings) rules _
  results := RecencyCache.remembers_empty _

section Rendering

variable {left right : Localizer} {leftLookup rightLookup : Lookup}

/-- Localizers with faithful formatters fill in a pattern with the same text. -/
theorem fill_eq {leftParameters rightParameters : Parameters}
    (settingsSame : left.settings = right.settings)
    (leftFaithful : left.messages.IsFaithful settings.nativeFormatting rules)
    (rightFaithful : right.messages.IsFaithful settings.nativeFormatting rules)
    (same : leftParameters.Indistinguishable rightParameters) (mode : LookupMode)
    (pattern : Pattern) :
    (left.fill mode pattern leftParameters).1 = (right.fill mode pattern rightParameters).1 := by
  cases mode with
  | message => exact leftFaithful.format_eq rightFaithful same pattern.text pattern.locale
  | singular =>
      simp only [fill, settingsSame]
      exact congrArg some (Template.fill_congr same _ _)
  | plural count =>
      simp only [fill, settingsSame]
      exact congrArg some (Template.fill_congr same _ _)

/-- Localizers with faithful formatters give the same text for lookups with the same key. -/
theorem render_eq (settingsSame : left.settings = right.settings)
    (rulesSame : left.rules = right.rules)
    (leftFaithful : left.messages.IsFaithful settings.nativeFormatting rules)
    (rightFaithful : right.messages.IsFaithful settings.nativeFormatting rules)
    (leftCounted : leftLookup.IsCounted) (rightCounted : rightLookup.IsCounted)
    (same : leftLookup.resultKey = rightLookup.resultKey) (dictionary : Dictionary) :
    (left.render leftLookup dictionary).1 = (right.render rightLookup dictionary).1 := by
  unfold render
  simp only [Lookup.pattern_of_resultKey leftCounted rightCounted same, rulesSame, settingsSame]
  split
  · next pattern _ =>
      have filled := fill_eq settingsSame leftFaithful rightFaithful
        (Lookup.indistinguishable_of_resultKey same) rightLookup.mode pattern
      rw [Lookup.mode_of_resultKey leftCounted rightCounted same]
      exact congrArg Except.ok filled
  · rfl

end Rendering

/-- The text of a lookup is the one from formatters that remember nothing. -/
theorem IsTransparent.render_eq (transparent : localizer.IsTransparent settings rules dictionary)
    {lookup : Lookup} (counted : lookup.IsCounted) :
    (localizer.render lookup dictionary).1 = reference settings rules dictionary lookup := by
  have new := isTransparent_ofParts settings rules dictionary false
  exact Localizer.render_eq (transparent.settings_eq.trans new.settings_eq.symm)
    (transparent.rules_eq.trans new.rules_eq.symm) transparent.messages new.messages counted counted
    rfl dictionary

/-- Rendering changes nothing but what the formatters remember. -/
theorem IsTransparent.render (transparent : localizer.IsTransparent settings rules dictionary)
    (lookup : Lookup) :
    (localizer.render lookup dictionary).2.1.IsTransparent settings rules dictionary := by
  unfold Localizer.render
  simp only
  split
  · next pattern _ =>
      cases mode : lookup.mode with
      | message =>
          have messages := transparent.messages.format pattern.text lookup.parameters pattern.locale
          exact ⟨transparent.settings_eq, transparent.rules_eq, transparent.dictionary_eq, messages,
            transparent.results⟩
      | singular => exact transparent
      | plural count => exact transparent
  · exact transparent

theorem IsTransparent.finish (transparent : localizer.IsTransparent settings rules dictionary)
    {pending : PendingLookup} {text : String} (counted : pending.lookup.IsCounted)
    (found : reference settings rules dictionary pending.lookup = .ok (some text)) :
    (localizer.finish pending text).IsTransparent settings rules dictionary := by
  unfold Localizer.finish
  split
  · refine ⟨transparent.settings_eq, transparent.rules_eq, transparent.dictionary_eq,
      transparent.messages, ?_⟩
    apply transparent.results.set
    intro lookup lookupCounted same
    have new := isTransparent_ofParts settings rules dictionary false
    rw [← found]
    exact Localizer.render_eq rfl rfl new.messages new.messages lookupCounted counted same
      dictionary
  · exact transparent

/-- A lookup begins with a remembered text, which is right, or with the present dictionary. -/
theorem IsTransparent.begin (transparent : localizer.IsTransparent settings rules dictionary)
    {lookup : Lookup} (counted : lookup.IsCounted) :
    (localizer.begin lookup).2.IsTransparent settings rules dictionary ∧
      match (localizer.begin lookup).1 with
      | .ok text => reference settings rules dictionary lookup = .ok (some text)
      | .error pending => pending.lookup = lookup ∧ pending.dictionary = dictionary := by
  have before := transparent.results.get lookup.resultKey
  unfold Localizer.begin ResultCache.get
  generalize localizer.results.entries.get lookup.resultKey = got at before ⊢
  rcases got with ⟨found, entries⟩
  have after (hits misses : Nat) :
      { localizer with results := ⟨entries, hits, misses⟩ }.IsTransparent settings rules
        dictionary :=
    ⟨transparent.settings_eq, transparent.rules_eq, transparent.dictionary_eq,
      transparent.messages, before.2⟩
  cases found with
  | some text => exact ⟨after _ _, before.1 text rfl lookup counted rfl⟩
  | none => exact ⟨after _ _, rfl, transparent.dictionary_eq⟩

/--
A lookup is answered with its text by the present dictionary, or else with its key. It never returns
exactly if its text is filled in without end there.
-/
theorem IsTransparent.answer (transparent : localizer.IsTransparent settings rules dictionary)
    {lookup : Lookup} (counted : lookup.IsCounted) :
    (localizer.answer lookup).1.text =
        ((reference settings rules dictionary lookup).toOption).getD (some lookup.key) ∧
      (localizer.answer lookup).2.1.IsTransparent settings rules dictionary := by
  rcases transparent.begin counted with ⟨next, start⟩
  unfold Localizer.answer
  generalize localizer.begin lookup = begun at next start ⊢
  rcases begun with ⟨pending | text, localizer⟩
  · rcases pending with ⟨lookup, dictionary, generation⟩
    rcases start with ⟨rfl, rfl⟩
    have text := next.render_eq counted
    have rendered := next.render lookup
    simp only
    generalize localizer.render lookup dictionary = result at text rendered ⊢
    rcases result with ⟨reason | _ | found, after, events⟩
    · rw [← text]
      exact ⟨rfl, rendered⟩
    · rw [← text]
      exact ⟨rfl, rendered⟩
    · rw [← text]
      exact ⟨rfl, rendered.finish counted text.symm⟩
  · simp only at start
    rw [start]
    exact ⟨rfl, next⟩

/-- The lookup that a request makes. -/
def lookupOf (localizer : Localizer) : TextRequest → Lookup
  | .text locale key parameters =>
      { mode := .singular, locale := localizer.effectiveLocale locale, key, parameters }
  | .plain locale key =>
      { mode := .singular, locale := localizer.effectiveLocale locale, key, parameters := [] }
  | .countText locale key count parameters =>
      .ofCount (localizer.effectiveLocale locale) key count parameters
  | .messageText locale key parameters =>
      { mode := .message, locale := localizer.effectiveLocale locale, key, parameters }

theorem isCounted_lookupOf (localizer : Localizer) (request : TextRequest) :
    (localizer.lookupOf request).IsCounted := by
  cases request with
  | countText locale key count parameters => exact Lookup.isCounted_ofCount _ _ _ _
  | text locale key parameters =>
      rintro _ ⟨⟩
  | plain locale key =>
      rintro _ ⟨⟩
  | messageText locale key parameters =>
      rintro _ ⟨⟩

theorem lookupOf_congr {left right : Localizer} (same : left.settings = right.settings) :
    left.lookupOf = right.lookupOf := by
  funext request
  cases request <;> simp only [lookupOf, effectiveLocale, same]

theorem request_eq_answer (localizer : Localizer) (request : TextRequest) :
    (localizer.request request).1 = (localizer.answer (localizer.lookupOf request)).1 ∧
      (localizer.request request).2.1 = (localizer.answer (localizer.lookupOf request)).2.1 := by
  cases request <;> exact ⟨rfl, rfl⟩

theorem IsTransparent.request (transparent : localizer.IsTransparent settings rules dictionary)
    (request : TextRequest) :
    (localizer.request request).1.text =
        ((reference settings rules dictionary (localizer.lookupOf request)).toOption).getD
          (some (localizer.lookupOf request).key) ∧
      (localizer.request request).2.1.IsTransparent settings rules dictionary := by
  rcases localizer.request_eq_answer request with ⟨answer, after⟩
  rw [answer, after]
  exact transparent.answer (localizer.isCounted_lookupOf request)

theorem IsTransparent.change (transparent : localizer.IsTransparent settings rules dictionary)
    (incoming : Dictionary) (report : ValidationReport) :
    (localizer.change incoming report).IsTransparent settings rules incoming :=
  ⟨transparent.settings_eq, transparent.rules_eq, rfl, transparent.messages.clear,
    RecencyCache.remembers_empty _⟩

/-- Every call leaves a localizer transparent for the dictionary after the call. -/
theorem IsTransparent.perform (transparent : localizer.IsTransparent settings rules dictionary)
    (call : LocalizerCall) :
    (localizer.perform call).IsTransparent settings rules (call.change dictionary) := by
  cases call with
  | request request => exact (transparent.request request).2
  | formatMessage locale message parameters =>
      exact ⟨transparent.settings_eq, transparent.rules_eq, transparent.dictionary_eq,
        transparent.messages.format _ _ _, transparent.results⟩
  | add incoming =>
      rw [← transparent.dictionary_eq]
      exact transparent.change _ _
  | replace incoming => exact transparent.change _ _
  | clearCache =>
      exact ⟨transparent.settings_eq, transparent.rules_eq, transparent.dictionary_eq,
        transparent.messages.clear, RecencyCache.remembers_empty _⟩
  | resetStats =>
      exact ⟨transparent.settings_eq, transparent.rules_eq, transparent.dictionary_eq,
        transparent.messages, transparent.results⟩

/-- Every run of calls leaves a localizer transparent for the dictionary after the run. -/
theorem IsTransparent.foldl_perform
    (transparent : localizer.IsTransparent settings rules dictionary)
    (calls : List LocalizerCall) :
    (calls.foldl Localizer.perform localizer).IsTransparent settings rules
      (calls.foldl LocalizerCall.change dictionary) := by
  induction calls generalizing localizer dictionary with
  | nil => exact transparent
  | cons call rest inductionHypothesis => exact inductionHypothesis (transparent.perform call)

/--
After any calls on a new localizer, every request is answered with the text that a new localizer
with the same settings and rules gives for the dictionary of that moment, and it returns exactly if
it returns there.
-/
theorem request_after_calls (settings : Settings) (rules : PluralRules) (dictionary : Dictionary)
    (listening : Bool) (calls : List LocalizerCall) (request : TextRequest) :
    ((calls.foldl perform (ofParts settings dictionary rules none listening).1).request
        request).1.text =
      ((ofParts settings (calls.foldl LocalizerCall.change dictionary) rules none
        listening).1.request request).1.text := by
  have reached := (isTransparent_ofParts settings rules dictionary listening).foldl_perform calls
  have new := isTransparent_ofParts settings rules (calls.foldl LocalizerCall.change dictionary)
    listening
  rw [(reached.request request).1, (new.request request).1,
    lookupOf_congr (reached.settings_eq.trans new.settings_eq.symm)]

end Localizer

end LocalizedText
