import LocalizedText.Cache.Insertion
import LocalizedText.Event
import LocalizedText.Number.Manual
import LocalizedText.Number.Plan

/-!
# Number formatting with remembered plans

A number formatter remembers the plan of every combination of a locale and options. Where there is
no plan, a value is formatted manually. Where there is one, it settles the text; a plan that never
comes to an end of its digits has no text for the value, and the call that asked for it never
returns. The plan is remembered by then, so that is seen by all further calls.
-/

namespace LocalizedText

/-- A formatter of numbers that remembers its plans. -/
structure NumberFormatter where
  plans : InsertionCache (String × NumberOptions) NumberPlan
  /-- Whether locale data is used at all. -/
  native : Bool

namespace NumberFormatter

/-- The number of plans that are usually remembered. -/
def usualCapacity : Nat := 100

/-- A formatter that uses locale data. -/
def ofCapacity (capacity : Nat) : NumberFormatter :=
  ⟨.empty capacity, true⟩

/-- A formatter that uses no locale data. -/
def manual : NumberFormatter :=
  ⟨.empty 0, false⟩

instance : Inhabited NumberFormatter := ⟨ofCapacity usualCapacity⟩

/-- A plan was made and, if there was room, remembered. -/
def plannedEvent (locale : String) (remembered : Nat) : Event where
  target := "lexis.format"
  level := .debug
  message := "number formatter compiled"
  fields := [("locale", locale), ("cached", toString remembered)]

/-- The options cannot be resolved. -/
def unplannedEvent (locale : String) (error : FormatError) : Event where
  target := "lexis.format"
  level := .warn
  message := "number formatter unavailable, using manual formatting"
  fields := [("locale", locale), ("error", error.message)]

/-- The plan for a locale and options, remembered or made. -/
def plan? (formatter : NumberFormatter) (locale : String) (options : NumberOptions) :
    Option NumberPlan × NumberFormatter × List Event :=
  if formatter.native then
    match formatter.plans.get? (locale, options) with
    | some plan => (some plan, formatter, [])
    | none =>
        match NumberPlan.resolve locale options with
        | .ok plan =>
            let plans := (formatter.plans.insert (locale, options) plan).2
            (some plan, { formatter with plans }, [plannedEvent locale plans.size])
        | .error error => (none, formatter, [unplannedEvent locale error])
  else (none, formatter, [])

/-- The text of a value by a plan if there is one, which may have none for it. -/
def write (plan : Option NumberPlan) (value : Double) (options : NumberOptions) : Option String :=
  match plan with
  | some plan => plan.format? value
  | none => some (ManualNumber.format value options)

/-- The text of a value. There is none when the call never returns. -/
def format (formatter : NumberFormatter) (value : Double) (locale : String)
    (options : NumberOptions) : Option String × NumberFormatter × List Event :=
  if value.isFinite then
    let (plan, formatter, events) := formatter.plan? locale options
    (write plan value options, formatter, events)
  else (some value.display, formatter, [])

/--
Two texts as a range. Ends with the same text are approximately one value. Plain decimals are joined
by a dash without spaces.
-/
def joinRange (options : NumberOptions) (first last : String) : String :=
  if first = last then "~" ++ first
  else if options.style = .decimal ∧ options.form = .standard then first ++ "–" ++ last
  else first ++ " – " ++ last

/-- The text of a range of values by a plan if there is one, which may have none for an end. -/
def writeRange (plan : Option NumberPlan) (first last : Double) (options : NumberOptions) :
    Option String :=
  match plan with
  | some plan => do return joinRange options (← plan.format? first) (← plan.format? last)
  | none =>
      some (ManualNumber.formatRange (ManualNumber.format first options)
        (ManualNumber.format last options))

/-- The text of a range of values. There is none when the call never returns. -/
def formatRange (formatter : NumberFormatter) (first last : Double) (locale : String)
    (options : NumberOptions) : Option String × NumberFormatter × List Event :=
  let (plan, formatter, events) := formatter.plan? locale options
  (writeRange plan first last options, formatter, events)

def clear (formatter : NumberFormatter) : NumberFormatter :=
  { formatter with plans := formatter.plans.clear }

def describe (formatter : NumberFormatter) : String :=
  s!"NumberFormatter \x7b native: {formatter.native}, cache: {formatter.plans.usage.describe} \x7d"

end NumberFormatter

end LocalizedText
