import LocalizedText.Proofs.Localizer.Reporting
import LocalizedText.Proofs.Message.Composition

/-!
# Lookups at the same time

Several callers may use one localizer at the same time. A lookup that the results do not answer takes
three steps. It begins with the dictionary of that moment and its generation; it renders its text by
that dictionary; and it finishes by remembering the text, if the generation is still the same. Between
these steps others may make lookups and change the dictionary, in any order.

The invariant ties every open lookup to the dictionary that it began with. While its generation is
the present one its dictionary is the present one too, because every change of the dictionary begins a
generation that no open lookup has. So whatever is remembered is the outcome by the present
dictionary, and whatever a lookup comes to is the outcome by the dictionary that it began with.
-/

namespace LocalizedText

/-- Where the number formatter of a localizer comes from. -/
inductive NumberSource where
  /-- It is the localizer's own, of the kind that the settings ask for. -/
  | own
  /-- It uses locale data, and others may use it as well. -/
  | native (capacity : Nat)
  /-- It uses no locale data, and others may use it as well. -/
  | manual

namespace NumberSource

/-- The formatter that a new localizer is given. -/
def formatter? : NumberSource → Option NumberFormatter
  | own => none
  | native capacity => some (.ofCapacity capacity)
  | manual => some .manual

/-- Whether the formatter uses locale data. -/
def isNative (settings : Settings) : NumberSource → Bool
  | own => settings.nativeFormatting
  | native _ => true
  | manual => false

theorem isFaithful_formatter (settings : Settings) (source : NumberSource) :
    (source.formatter?.getD (Localizer.numbersFor settings)).IsFaithful
      (source.isNative settings) := by
  cases source with
  | own => exact Localizer.isFaithful_numbersFor settings
  | native capacity => exact NumberFormatter.isFaithful_ofCapacity capacity
  | manual => exact NumberFormatter.isFaithful_manual

end NumberSource

/-- A lookup that has begun with a dictionary and has not taken its last step. -/
structure OpenLookup where
  request : TextRequest
  pending : PendingLookup
  /-- The text, once it has been rendered. -/
  rendered : Option String
  /-- The number of steps before it began. -/
  began : Nat

/-- A lookup that has taken its last step. -/
structure EndedLookup where
  request : TextRequest
  /--
  The text, or the reason why the key is returned in its place. A lookup whose text is rendered
  without end has none and never returns.
  -/
  outcome : Except MissingReason (Option String)
  /-- The number of steps before it began. -/
  began : Nat
  /-- The number of steps before its last one. -/
  ended : Nat

/--
The text that a lookup returned, if it ever does; the key stands for a text that the dictionary does
not have.
-/
def EndedLookup.text (ended : EndedLookup) : Option String :=
  match ended.outcome with
  | .ok text => text
  | .error _ => some ended.request.key

/-- What happens to a localizer while several callers use it. -/
inductive SharedStep where
  | begin (request : TextRequest)
  /-- The open lookup at a position renders its text. -/
  | render (position : Nat)
  /-- The open lookup at a position remembers its text and returns it. -/
  | finish (position : Nat)
  | add (incoming : Dictionary)
  | replace (incoming : Dictionary)
  | clearCache
  | resetStats
  /-- Somebody uses the formatters of messages and numbers. -/
  | format (call : MessageFormatterCall)

/-- A step that changes the dictionary. -/
def SharedStep.isChange : SharedStep → Bool
  | .add _ => true
  | .replace _ => true
  | _ => false

/-- A localizer that several callers use, with the lookups that they have made. -/
structure SharedLocalizer where
  localizer : Localizer
  /-- The open lookups, the latest first. -/
  opened : List OpenLookup
  /-- The lookups that have taken their last step, the latest first. -/
  ended : List EndedLookup
  /-- The number of steps so far. -/
  clock : Nat

namespace SharedLocalizer

/-- A localizer that nobody has used yet. -/
def ofLocalizer (localizer : Localizer) : SharedLocalizer :=
  ⟨localizer, [], [], 0⟩

/-- A lookup takes its last step with the one that is being taken. -/
def conclude (shared : SharedLocalizer) (request : TextRequest)
    (outcome : Except MissingReason (Option String)) (began : Nat) : SharedLocalizer :=
  { shared with ended := ⟨request, outcome, began, shared.clock⟩ :: shared.ended }

/-- A lookup begins; it ends at once when its text is remembered. -/
def begin (shared : SharedLocalizer) (request : TextRequest) : SharedLocalizer :=
  match shared.localizer.begin (shared.localizer.lookupOf request) with
  | (.ok text, localizer) =>
      { shared with localizer }.conclude request (.ok (some text)) shared.clock
  | (.error pending, localizer) =>
      { shared with
        localizer
        opened := ⟨request, pending, none, shared.clock⟩ :: shared.opened }

/--
An open lookup renders its text. This is its last step when the dictionary has none, and also when
rendering never ends: it holds no lock meanwhile, so the others go on without it.
-/
def render (shared : SharedLocalizer) (position : Nat) : SharedLocalizer :=
  match shared.opened[position]? with
  | some ⟨request, pending, none, began⟩ =>
      match shared.localizer.render pending.lookup pending.dictionary with
      | (.ok (some text), localizer, _) =>
          { shared with
            localizer
            opened := shared.opened.set position ⟨request, pending, some text, began⟩ }
      | (.ok none, localizer, _) =>
          { shared with localizer, opened := shared.opened.eraseIdx position }.conclude request
            (.ok none) began
      | (.error reason, localizer, _) =>
          { shared with localizer, opened := shared.opened.eraseIdx position }.conclude request
            (.error reason) began
  | _ => shared

/-- An open lookup whose text is rendered comes to its end. -/
def finish (shared : SharedLocalizer) (position : Nat) : SharedLocalizer :=
  match shared.opened[position]? with
  | some ⟨request, pending, some text, began⟩ =>
      { shared with
        localizer := shared.localizer.finish pending text
        opened := shared.opened.eraseIdx position }.conclude request (.ok (some text)) began
  | _ => shared

/-- What a step does; a step of a lookup that is not there, or not so far, does nothing. -/
def perform (shared : SharedLocalizer) : SharedStep → SharedLocalizer
  | .begin request => shared.begin request
  | .render position => shared.render position
  | .finish position => shared.finish position
  | .add incoming => { shared with localizer := (shared.localizer.add incoming).2.1 }
  | .replace incoming => { shared with localizer := (shared.localizer.replace incoming).2.1 }
  | .clearCache => { shared with localizer := shared.localizer.clearCache.1 }
  | .resetStats => { shared with localizer := shared.localizer.resetStats }
  | .format call =>
      let messages := shared.localizer.messages.perform call
      { shared with localizer := { shared.localizer with messages } }

def advance (shared : SharedLocalizer) (step : SharedStep) : SharedLocalizer :=
  { shared.perform step with clock := shared.clock + 1 }

def run (shared : SharedLocalizer) (steps : List SharedStep) : SharedLocalizer :=
  steps.foldl advance shared

end SharedLocalizer

namespace Localizer

/-- A localizer with the settings and rules of a new one, whose formatters are all faithful. -/
structure Serves (made : Localizer) (native : Bool) (localizer : Localizer) : Prop where
  settings_eq : localizer.settings = made.settings
  rules_eq : localizer.rules = made.rules
  messages : localizer.messages.IsFaithful native made.rules

/--
A text is the outcome of every request with a key by a dictionary, as a new localizer has it, and
there is such a request.
-/
def IsOutcome (made : Localizer) (dictionary : Dictionary) (key : ResultKey) (text : String) :
    Prop :=
  (∃ request, (made.lookupOf request).resultKey = key) ∧
    ∀ request, (made.lookupOf request).resultKey = key →
      (made.render (made.lookupOf request) dictionary).1 = .ok (some text)

variable {made localizer : Localizer} {native : Bool} {lookup : Lookup}

theorem serves_ofParts (settings : Settings) (rules : PluralRules) (source : NumberSource)
    (dictionary current : Dictionary) (listening : Bool) :
    (ofParts settings dictionary rules source.formatter? listening).1.Serves
      (source.isNative settings)
      (ofParts settings current rules source.formatter? listening).1 where
  settings_eq := rfl
  rules_eq := rfl
  messages := MessageFormatter.isFaithful_ofParts (source.isFaithful_formatter settings) rules _

theorem Serves.lookupOf_eq (serves : made.Serves native localizer) :
    localizer.lookupOf = made.lookupOf :=
  lookupOf_congr serves.settings_eq

/-- A lookup comes to what a new localizer makes of it, and rendering only uses the formatters. -/
theorem Serves.render (serves : made.Serves native localizer)
    (new : made.Serves native made) (counted : lookup.IsCounted) (dictionary : Dictionary) :
    (localizer.render lookup dictionary).1 = (made.render lookup dictionary).1 ∧
      ∃ messages, messages.IsFaithful native made.rules ∧
        (localizer.render lookup dictionary).2.1 = { localizer with messages } := by
  have usual : ({ nativeFormatting := native } : Settings).nativeFormatting = native := rfl
  rw [← usual] at serves new
  refine ⟨render_eq serves.settings_eq serves.rules_eq serves.messages new.messages counted counted
    rfl dictionary, ?_⟩
  unfold Localizer.render
  simp only
  split
  · next pattern _ =>
      cases lookup.mode with
      | message =>
          exact ⟨_, serves.messages.format pattern.text lookup.parameters pattern.locale, rfl⟩
      | singular => exact ⟨localizer.messages, serves.messages, rfl⟩
      | plural count => exact ⟨localizer.messages, serves.messages, rfl⟩
  · exact ⟨localizer.messages, serves.messages, rfl⟩

/--
Beginning a lookup only uses the results. It goes on with the present dictionary, or ends with a text
that was remembered.
-/
theorem begin_cases (localizer : Localizer) (lookup : Lookup) :
    ∃ results : ResultCache,
      (∀ right, localizer.results.entries.Remembers right → results.entries.Remembers right) ∧
        (localizer.begin lookup = (.error ⟨lookup, localizer.dictionary, localizer.generation⟩,
            { localizer with results }) ∨
          ∃ text, localizer.begin lookup = (.ok text, { localizer with results }) ∧
            ∀ right, localizer.results.entries.Remembers right →
              right lookup.resultKey text) := by
  have got (right : ResultKey → String → Prop)
      (remembers : localizer.results.entries.Remembers right) := remembers.get lookup.resultKey
  unfold Localizer.begin ResultCache.get
  generalize localizer.results.entries.get lookup.resultKey = found at got ⊢
  rcases found with ⟨_ | text, entries⟩
  · exact ⟨⟨entries, _, _⟩, fun right remembers => (got right remembers).2, Or.inl rfl⟩
  · exact ⟨⟨entries, _, _⟩, fun right remembers => (got right remembers).2,
      Or.inr ⟨text, rfl, fun right remembers => (got right remembers).1 text rfl⟩⟩

/-- Finishing a lookup remembers its text if the dictionary has not changed. -/
theorem finish_cases (localizer : Localizer) (pending : PendingLookup) (text : String) :
    ∃ results : ResultCache, localizer.finish pending text = { localizer with results } ∧
      ∀ right, localizer.results.entries.Remembers right →
        (pending.generation = localizer.generation → right pending.lookup.resultKey text) →
          results.entries.Remembers right := by
  unfold Localizer.finish
  split
  · next same =>
      exact ⟨_, rfl, fun right remembers isRight => remembers.set (isRight same.symm)⟩
  · exact ⟨localizer.results, rfl, fun right remembers _ => remembers⟩

/-- The text of one request with a key is the outcome of every request with this key. -/
theorem isOutcome_of_render (new : made.Serves native made) {dictionary : Dictionary}
    {request : TextRequest} {text : String}
    (outcome : (made.render (made.lookupOf request) dictionary).1 = .ok (some text)) :
    made.IsOutcome dictionary (made.lookupOf request).resultKey text := by
  have usual : ({ nativeFormatting := native } : Settings).nativeFormatting = native := rfl
  rw [← usual] at new
  refine ⟨⟨request, rfl⟩, ?_⟩
  intro other same
  rw [← outcome]
  exact render_eq rfl rfl new.messages new.messages (made.isCounted_lookupOf other)
    (made.isCounted_lookupOf request) same dictionary

end Localizer

namespace SharedLocalizer

/--
An open lookup goes on with the dictionary that it began with, which is the present one as long as
its generation is; and what it has rendered is the outcome by this dictionary.
-/
structure IsOnTrack (made : Localizer) (past : Nat → Dictionary) (limit : Nat)
    (localizer : Localizer) (opened : OpenLookup) : Prop where
  lookup_eq : opened.pending.lookup = made.lookupOf opened.request
  began_lt : opened.began < limit
  dictionary_eq : opened.pending.dictionary = past opened.began
  generation_le : opened.pending.generation ≤ localizer.generation
  current : opened.pending.generation = localizer.generation →
    opened.pending.dictionary = localizer.dictionary
  rendered : ∀ text ∈ opened.rendered,
    (made.render opened.pending.lookup opened.pending.dictionary).1 = .ok (some text)

/-- A lookup has come to the outcome by the dictionary that was there when it began. -/
structure IsAnswered (made : Localizer) (past : Nat → Dictionary) (limit : Nat)
    (ended : EndedLookup) : Prop where
  began_le : ended.began ≤ ended.ended
  ended_lt : ended.ended < limit
  outcome_eq : ended.outcome = (made.render (made.lookupOf ended.request) (past ended.began)).1

/--
A shared localizer remembers outcomes by its present dictionary only; its open lookups are on track,
and those that have come to their end were answered. All of them began within so many steps, and the
past says which dictionary was there after each number of steps.
-/
structure IsSound (made : Localizer) (native : Bool) (past : Nat → Dictionary) (limit : Nat)
    (shared : SharedLocalizer) : Prop where
  serves : made.Serves native shared.localizer
  results : shared.localizer.results.entries.Remembers
    (made.IsOutcome shared.localizer.dictionary)
  opened : ∀ opened ∈ shared.opened, IsOnTrack made past limit shared.localizer opened
  ended : ∀ ended ∈ shared.ended, IsAnswered made past limit ended

variable {made localizer other : Localizer} {native : Bool} {past later : Nat → Dictionary}
  {limit : Nat} {shared : SharedLocalizer}

theorem IsOnTrack.keep {opened : OpenLookup} (onTrack : IsOnTrack made past limit localizer opened)
    (generation : other.generation = localizer.generation)
    (dictionary : other.dictionary = localizer.dictionary) :
    IsOnTrack made past limit other opened where
  lookup_eq := onTrack.lookup_eq
  began_lt := onTrack.began_lt
  dictionary_eq := onTrack.dictionary_eq
  generation_le := by simpa [generation] using onTrack.generation_le
  current := by simpa [generation, dictionary] using onTrack.current
  rendered := onTrack.rendered

/-- A change of the dictionary begins a generation that no open lookup has. -/
theorem IsOnTrack.change {opened : OpenLookup}
    (onTrack : IsOnTrack made past limit localizer opened)
    (incoming : Dictionary) (report : ValidationReport) :
    IsOnTrack made past limit (localizer.change incoming report) opened where
  lookup_eq := onTrack.lookup_eq
  began_lt := onTrack.began_lt
  dictionary_eq := onTrack.dictionary_eq
  generation_le := Nat.le_succ_of_le onTrack.generation_le
  current := by
    intro same
    have older : opened.pending.generation < localizer.generation + 1 :=
      Nat.lt_succ_of_le onTrack.generation_le
    exact absurd same (Nat.ne_of_lt older)
  rendered := onTrack.rendered

/-- The past may go on differently after the lookups began, as long as there are no other ones. -/
theorem IsSound.mono {limit further : Nat} (sound : IsSound made native past limit shared)
    (longer : limit ≤ further) (agree : ∀ moment < limit, later moment = past moment) :
    IsSound made native later further shared where
  serves := sound.serves
  results := sound.results
  opened := by
    intro opened member
    have onTrack := sound.opened opened member
    exact ⟨onTrack.lookup_eq, Nat.lt_of_lt_of_le onTrack.began_lt longer,
      onTrack.dictionary_eq.trans (agree _ onTrack.began_lt).symm, onTrack.generation_le,
      onTrack.current, onTrack.rendered⟩
  ended := by
    intro ended member
    have answered := sound.ended ended member
    have began : ended.began < limit := Nat.lt_of_le_of_lt answered.began_le answered.ended_lt
    refine ⟨answered.began_le, Nat.lt_of_lt_of_le answered.ended_lt longer, ?_⟩
    rw [agree _ began]
    exact answered.outcome_eq

/-- A step that only uses the formatters and the results keeps a localizer sound. -/
theorem IsSound.use (sound : IsSound made native past limit shared)
    {messages : MessageFormatter} {results : ResultCache}
    (faithful : messages.IsFaithful native made.rules)
    (remembers : results.entries.Remembers (made.IsOutcome shared.localizer.dictionary)) :
    IsSound made native past limit
      { shared with localizer := { shared.localizer with messages, results } } where
  serves := ⟨sound.serves.settings_eq, sound.serves.rules_eq, faithful⟩
  results := remembers
  opened := fun opened member => (sound.opened opened member).keep rfl rfl
  ended := sound.ended

theorem IsSound.change (sound : IsSound made native past limit shared) (incoming : Dictionary)
    (report : ValidationReport) :
    IsSound made native past limit
      { shared with localizer := shared.localizer.change incoming report } where
  serves := ⟨sound.serves.settings_eq, sound.serves.rules_eq, sound.serves.messages.clear⟩
  results := RecencyCache.remembers_empty _
  opened := fun opened member => (sound.opened opened member).change incoming report
  ended := sound.ended

theorem IsSound.conclude (sound : IsSound made native past limit shared) {request : TextRequest}
    {outcome : Except MissingReason (Option String)} {began : Nat} (began_le : began ≤ shared.clock)
    (clock_lt : shared.clock < limit)
    (answered : outcome = (made.render (made.lookupOf request) (past began)).1) :
    IsSound made native past limit (shared.conclude request outcome began) where
  serves := sound.serves
  results := sound.results
  opened := sound.opened
  ended := by
    intro ended member
    rcases List.mem_cons.mp member with rfl | member
    · exact ⟨began_le, clock_lt, answered⟩
    · exact sound.ended ended member

/-- Open lookups may be dropped, and one that is on track may take the place of another. -/
theorem IsSound.withOpened (sound : IsSound made native past limit shared)
    {opened : List OpenLookup}
    (onTrack : ∀ lookup ∈ opened,
      lookup ∈ shared.opened ∨ IsOnTrack made past limit shared.localizer lookup) :
    IsSound made native past limit { shared with opened } where
  serves := sound.serves
  results := sound.results
  opened := by
    intro lookup member
    rcases onTrack lookup member with known | isOnTrack
    · exact sound.opened lookup known
    · exact isOnTrack
  ended := sound.ended

theorem IsSound.drop (sound : IsSound made native past limit shared) (position : Nat) :
    IsSound made native past limit
      { shared with opened := shared.opened.eraseIdx position } := by
  apply sound.withOpened
  intro lookup member
  exact Or.inl (List.mem_of_mem_eraseIdx member)

theorem IsSound.begin (sound : IsSound made native past (shared.clock + 1) shared)
    (present : past shared.clock = shared.localizer.dictionary) (request : TextRequest) :
    IsSound made native past (shared.clock + 1) (shared.begin request) := by
  have asked : shared.localizer.lookupOf request = made.lookupOf request := by
    rw [sound.serves.lookupOf_eq]
  rcases shared.localizer.begin_cases (shared.localizer.lookupOf request) with
    ⟨results, stays, begun | ⟨text, begun, isRight⟩⟩
  · have used := sound.use sound.serves.messages (stays _ sound.results)
    unfold SharedLocalizer.begin
    rw [begun]
    apply used.withOpened
    intro opened member
    rcases List.mem_cons.mp member with rfl | member
    · exact Or.inr
        ⟨asked, Nat.lt_succ_self _, present.symm, Nat.le_refl _, fun _ => rfl, by simp⟩
    · exact Or.inl member
  · have used := sound.use sound.serves.messages (stays _ sound.results)
    have isOutcome := isRight _ sound.results
    unfold SharedLocalizer.begin
    rw [begun]
    apply used.conclude (Nat.le_refl _) (Nat.lt_succ_self _)
    rw [present, isOutcome.2 request (congrArg Lookup.resultKey asked.symm)]

theorem IsSound.render (sound : IsSound made native past (shared.clock + 1) shared)
    (new : made.Serves native made) (position : Nat) :
    IsSound made native past (shared.clock + 1) (shared.render position) := by
  unfold SharedLocalizer.render
  split
  · next request pending began found =>
      have onTrack := sound.opened _ (List.mem_of_getElem? found)
      have counted : pending.lookup.IsCounted := by
        rw [onTrack.lookup_eq]
        exact made.isCounted_lookupOf request
      rcases sound.serves.render new counted pending.dictionary with
        ⟨outcome, messages, faithful, rendered⟩
      have used := sound.use faithful sound.results
      generalize shared.localizer.render pending.lookup pending.dictionary = result
        at outcome rendered ⊢
      have settled : result.1 = (made.render (made.lookupOf request) (past began)).1 := by
        rw [← onTrack.dictionary_eq, ← onTrack.lookup_eq]
        exact outcome
      have concluded := (used.drop position).conclude (Nat.le_of_lt_succ onTrack.began_lt)
        (Nat.lt_succ_self _) settled
      rcases result with ⟨reason | _ | text, localizer, events⟩
      · simp only at rendered
        subst rendered
        exact concluded
      · simp only at rendered
        subst rendered
        exact concluded
      · simp only at outcome rendered
        subst rendered
        apply used.withOpened
        intro opened member
        rcases List.mem_or_eq_of_mem_set member with member | rfl
        · exact Or.inl member
        · refine Or.inr ⟨onTrack.lookup_eq, onTrack.began_lt, onTrack.dictionary_eq,
            onTrack.generation_le, onTrack.current, ?_⟩
          rintro _ ⟨⟩
          exact outcome.symm
  · exact sound

theorem IsSound.finish (sound : IsSound made native past (shared.clock + 1) shared)
    (new : made.Serves native made) (position : Nat) :
    IsSound made native past (shared.clock + 1) (shared.finish position) := by
  unfold SharedLocalizer.finish
  split
  · next request pending text began found =>
      have onTrack := sound.opened _ (List.mem_of_getElem? found)
      have outcome := onTrack.rendered text rfl
      -- With the generation that it began with, its dictionary is still the present one.
      have isRight : pending.generation = shared.localizer.generation →
          made.IsOutcome shared.localizer.dictionary pending.lookup.resultKey text := by
        intro same
        rw [← onTrack.current same]
        rw [onTrack.lookup_eq] at outcome ⊢
        exact Localizer.isOutcome_of_render new outcome
      rcases shared.localizer.finish_cases pending text with ⟨results, finished, remembers⟩
      rw [finished]
      have used := sound.use sound.serves.messages (remembers _ sound.results isRight)
      apply (used.drop position).conclude (Nat.le_of_lt_succ onTrack.began_lt) (Nat.lt_succ_self _)
      rw [← onTrack.dictionary_eq, ← onTrack.lookup_eq]
      exact outcome.symm
  · exact sound

/-- What a step does leaves a localizer sound. -/
theorem IsSound.perform (sound : IsSound made native past (shared.clock + 1) shared)
    (new : made.Serves native made) (present : past shared.clock = shared.localizer.dictionary)
    (step : SharedStep) : IsSound made native past (shared.clock + 1) (shared.perform step) := by
  cases step with
  | begin request => exact sound.begin present request
  | render position => exact sound.render new position
  | finish position => exact sound.finish new position
  | add incoming => exact sound.change _ _
  | replace incoming => exact sound.change _ _
  | clearCache => exact sound.use sound.serves.messages.clear (RecencyCache.remembers_empty _)
  | resetStats => exact sound.use sound.serves.messages sound.results
  | format call => exact sound.use (sound.serves.messages.perform call) sound.results

theorem isSound_ofLocalizer (new : made.Serves native made)
    (unused : made.results.entries.Remembers (made.IsOutcome made.dictionary)) :
    IsSound made native past limit (ofLocalizer made) where
  serves := new
  results := unused
  opened := by simp [ofLocalizer]
  ended := by simp [ofLocalizer]

/-- A step that changes no dictionary only uses the formatters and the results. -/
theorem localizer_perform (shared : SharedLocalizer) {step : SharedStep}
    (unchanged : step.isChange = false) :
    ∃ messages results,
      (shared.perform step).localizer = { shared.localizer with messages, results } := by
  cases step with
  | begin request =>
      rcases shared.localizer.begin_cases (shared.localizer.lookupOf request) with
        ⟨results, -, begun | ⟨text, begun, -⟩⟩
      · exact ⟨shared.localizer.messages, results, by simp [perform, begin, begun]⟩
      · exact ⟨shared.localizer.messages, results, by simp [perform, begin, begun, conclude]⟩
  | render position =>
      simp only [perform, render]
      split
      · next request pending began _ =>
          rcases shared.localizer.render_cases pending.lookup pending.dictionary with
            ⟨⟨messages, rendered⟩, -⟩
          refine ⟨messages, shared.localizer.results, ?_⟩
          rw [← rendered]
          split
          · next found => rw [found]
          · next found => rw [found, conclude]
          · next found => rw [found, conclude]
      · exact ⟨shared.localizer.messages, shared.localizer.results, rfl⟩
  | finish position =>
      simp only [perform, finish]
      split
      · next request pending text began _ =>
          rcases shared.localizer.finish_cases pending text with ⟨results, finished, -⟩
          exact ⟨shared.localizer.messages, results, finished⟩
      · exact ⟨shared.localizer.messages, shared.localizer.results, rfl⟩
  | clearCache => exact ⟨_, _, rfl⟩
  | resetStats => exact ⟨shared.localizer.messages, _, rfl⟩
  | format call => exact ⟨_, shared.localizer.results, rfl⟩
  | add incoming => cases unchanged
  | replace incoming => cases unchanged

theorem generation_perform (shared : SharedLocalizer) (step : SharedStep) :
    (shared.perform step).localizer.generation =
      shared.localizer.generation + if step.isChange then 1 else 0 := by
  cases change : step.isChange with
  | false =>
      rcases shared.localizer_perform change with ⟨messages, results, used⟩
      rw [used]
      rfl
  | true =>
      cases step with
      | add incoming => rfl
      | replace incoming => rfl
      | _ => cases change

/-- A lookup that is made alone takes its steps one after another, and returns like a request. -/
theorem exists_steps_request (shared : SharedLocalizer) (request : TextRequest) :
    ∃ steps ended,
      (shared.run steps).localizer = (shared.localizer.request request).2.1 ∧
        (shared.run steps).opened = shared.opened ∧
        (shared.run steps).ended = ended :: shared.ended ∧
        ended.request = request ∧ ended.text = (shared.localizer.request request).1.text := by
  rcases shared.localizer.request_eq_answer request with ⟨answer, after⟩
  have key : (shared.localizer.lookupOf request).key = request.key :=
    shared.localizer.key_lookupOf request
  rw [answer, after]
  unfold Localizer.answer
  generalize asked : shared.localizer.lookupOf request = lookup at key
  cases begun : shared.localizer.begin lookup with
  | mk result localizer =>
      have first := begun
      rw [← asked] at first
      cases result with
      | ok text =>
          refine ⟨[.begin request], ⟨request, .ok (some text), shared.clock, shared.clock⟩, ?_⟩
          simp [run, advance, perform, begin, first, conclude, EndedLookup.text]
      | error pending =>
          -- The lookup opens in front of all others, and is rendered and finished there.
          let opened : SharedLocalizer :=
            { shared with
              localizer
              opened := ⟨request, pending, none, shared.clock⟩ :: shared.opened
              clock := shared.clock + 1 }
          have opens : shared.advance (.begin request) = opened := by
            simp [opened, advance, perform, begin, first]
          have same : pending.lookup = lookup := by
            rcases shared.localizer.begin_cases lookup with ⟨results, -, goesOn | ⟨text, ends, -⟩⟩
            · rw [begun] at goesOn
              cases goesOn
              rfl
            · rw [begun] at ends
              cases ends
          have pendingKey : pending.lookup.key = request.key := by rw [same, key]
          cases rendered : localizer.render pending.lookup pending.dictionary with
          | mk outcome rest =>
              rcases rest with ⟨last, events⟩
              rcases outcome with reason | _ | text
              · refine ⟨[.begin request, .render 0],
                  ⟨request, .error reason, shared.clock, shared.clock + 1⟩, ?_⟩
                simp only [run, List.foldl_cons, List.foldl_nil, opens]
                simp [opened, advance, perform, render, rendered, conclude, EndedLookup.text,
                  ← same, pendingKey]
              · refine ⟨[.begin request, .render 0],
                  ⟨request, .ok none, shared.clock, shared.clock + 1⟩, ?_⟩
                simp only [run, List.foldl_cons, List.foldl_nil, opens]
                simp [opened, advance, perform, render, rendered, conclude, EndedLookup.text,
                  ← same]
              · refine ⟨[.begin request, .render 0, .finish 0],
                  ⟨request, .ok (some text), shared.clock, shared.clock + 2⟩, ?_⟩
                simp only [run, List.foldl_cons, List.foldl_nil, opens]
                simp [opened, advance, perform, render, rendered, finish, conclude,
                  EndedLookup.text, ← same]

theorem run_concat (shared : SharedLocalizer) (steps : List SharedStep) (step : SharedStep) :
    shared.run (steps ++ [step]) = (shared.run steps).advance step := by
  simp [run]

theorem clock_run (shared : SharedLocalizer) (steps : List SharedStep) :
    (shared.run steps).clock = shared.clock + steps.length := by
  induction steps using List.reverseRecOn with
  | nil => rfl
  | append_singleton steps step inductionHypothesis =>
      rw [run_concat, advance, inductionHypothesis]
      simp [Nat.add_assoc]

/-- The generation is the number of changes of the dictionary. -/
theorem generation_run (shared : SharedLocalizer) (steps : List SharedStep) :
    (shared.run steps).localizer.generation =
      shared.localizer.generation + steps.countP SharedStep.isChange := by
  induction steps using List.reverseRecOn with
  | nil => rfl
  | append_singleton steps step inductionHypothesis =>
      rw [run_concat, List.countP_append, List.countP_singleton, ← Nat.add_assoc,
        ← inductionHypothesis]
      exact generation_perform _ step

/-- The dictionary after so many of the steps. -/
def dictionaryAfter (shared : SharedLocalizer) (steps : List SharedStep) (moment : Nat) :
    Dictionary :=
  (shared.run (steps.take moment)).localizer.dictionary

/-- Whatever steps several callers take, a localizer stays sound. -/
theorem isSound_run (new : made.Serves native made)
    (unused : made.results.entries.Remembers (made.IsOutcome made.dictionary))
    (steps : List SharedStep) :
    IsSound made native ((ofLocalizer made).dictionaryAfter steps) steps.length
      ((ofLocalizer made).run steps) := by
  induction steps using List.reverseRecOn with
  | nil => exact isSound_ofLocalizer new unused
  | append_singleton steps step inductionHypothesis =>
      have clock : ((ofLocalizer made).run steps).clock = steps.length := by
        rw [clock_run]
        exact Nat.zero_add _
      have present : (ofLocalizer made).dictionaryAfter steps ((ofLocalizer made).run steps).clock =
          ((ofLocalizer made).run steps).localizer.dictionary := by
        rw [clock, dictionaryAfter, List.take_length]
      rw [← clock] at inductionHypothesis
      have performed := (inductionHypothesis.mono (Nat.le_succ _) fun _ _ => rfl).perform new present
        step
      rw [clock] at performed
      rw [run_concat, List.length_append, List.length_singleton]
      -- The past is the same with the last step and without it, up to that step.
      have agree : ∀ moment < steps.length + 1,
          (ofLocalizer made).dictionaryAfter (steps ++ [step]) moment =
            (ofLocalizer made).dictionaryAfter steps moment := by
        intro moment within
        rw [dictionaryAfter, List.take_append_of_le_length (Nat.le_of_lt_succ within)]
        rfl
      have ticked := performed.mono (Nat.le_refl _) agree
      exact ⟨ticked.serves, ticked.results, ticked.opened, ticked.ended⟩

/--
A counter of 64 bits tells the generation of an open lookup from the present one, as long as the
dictionary has changed less often than it can count.
-/
theorem IsSound.generation_eq_of_mod (sound : IsSound made native past limit shared)
    (fewer : shared.localizer.generation < 2 ^ 64) {opened : OpenLookup}
    (member : opened ∈ shared.opened)
    (same : opened.pending.generation % 2 ^ 64 = shared.localizer.generation % 2 ^ 64) :
    opened.pending.generation = shared.localizer.generation := by
  have older := (sound.opened opened member).generation_le
  rwa [Nat.mod_eq_of_lt (Nat.lt_of_le_of_lt older fewer), Nat.mod_eq_of_lt fewer] at same

/--
Whatever steps several callers take in whatever order, every remembered text is the outcome of each
request with its key, as a new localizer over the present dictionary has it; and every lookup has
come to its outcome by a dictionary that was there at some moment between its begin and its end. So
a lookup returns a text only if the new localizer does, and never returns only if that never does.
-/
theorem outcomes_of_interleaving (settings : Settings) (rules : PluralRules)
    (source : NumberSource) (dictionary : Dictionary) (listening : Bool)
    (steps : List SharedStep) :
    let new (current : Dictionary) : Localizer :=
      (Localizer.ofParts settings current rules source.formatter? listening).1
    let outcome (current : Dictionary) (request : TextRequest) :
        Except MissingReason (Option String) :=
      ((new current).render ((new current).lookupOf request) current).1
    let start := ofLocalizer (new dictionary)
    let shared := start.run steps
    (∀ pair ∈ shared.localizer.results.entries.toList,
      (∃ request, (shared.localizer.lookupOf request).resultKey = pair.1) ∧
        ∀ request, (shared.localizer.lookupOf request).resultKey = pair.1 →
          outcome shared.localizer.dictionary request = .ok (some pair.2)) ∧
      ∀ ended ∈ shared.ended, ended.ended < steps.length ∧
        ∃ moment, ended.began ≤ moment ∧ moment ≤ ended.ended ∧
          ended.outcome = outcome (start.dictionaryAfter steps moment) ended.request := by
  intro new outcome start shared
  have serves (current : Dictionary) :
      (new dictionary).Serves (source.isNative settings) (new current) :=
    Localizer.serves_ofParts settings rules source dictionary current listening
  have sound : IsSound (new dictionary) (source.isNative settings)
      (start.dictionaryAfter steps) steps.length shared :=
    isSound_run (serves dictionary) (RecencyCache.remembers_empty _) steps
  -- Localizers that serve the same rules differ in what they remember only, not in their outcomes.
  have anew (current : Dictionary) (request : TextRequest) :
      outcome current request =
        ((new dictionary).render ((new dictionary).lookupOf request) current).1 := by
    show ((new current).render ((new current).lookupOf request) current).1 = _
    rw [(serves current).lookupOf_eq]
    exact ((serves current).render (serves dictionary)
      ((new dictionary).isCounted_lookupOf request) current).1
  refine ⟨?_, ?_⟩
  · intro pair member
    rcases sound.results with ⟨pairs, holds, -, areOutcomes⟩
    rw [holds.toList_eq] at member
    rcases areOutcomes pair member with ⟨asked, areEqual⟩
    rw [sound.serves.lookupOf_eq]
    refine ⟨asked, ?_⟩
    intro request same
    rw [anew]
    exact areEqual request same
  · intro ended member
    have answered := sound.ended ended member
    refine ⟨answered.ended_lt, ended.began, Nat.le_refl _, answered.began_le, ?_⟩
    rw [anew]
    exact answered.outcome_eq

end SharedLocalizer

end LocalizedText
