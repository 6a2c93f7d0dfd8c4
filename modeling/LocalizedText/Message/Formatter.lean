import LocalizedText.Cache.Recency
import LocalizedText.Message.Faults
import LocalizedText.Number.Formatter
import LocalizedText.Number.Ordinal
import LocalizedText.Plural.Rule
import LocalizedText.Template

/-!
# Formatting messages

A message is formatted for parameters and a locale. Its numbers go through a number formatter, its
branches are chosen by plural rules or ordinal rules, and messages that were read are remembered.
What a part of a message yields is added to an output that also carries the state of the formatters
and what there is to tell. A number that is formatted without end leaves an output without a text,
to which nothing is added any more.
-/

namespace LocalizedText

/-- The formatters that a message is formatted with, and what they have yielded so far. -/
structure MessageOutput where
  /-- The text so far, unless a number in it is formatted without end. -/
  text : Option String
  numbers : NumberFormatter
  ordinals : OrdinalFormatter
  events : List Event

/-- What the parts of a message are formatted for. -/
structure MessageScope where
  parameters : Parameters
  locale : String
  rules : PluralRules
  /-- The number of the innermost branch by a count. -/
  pound : Option Double

namespace MessageOutput

def append (output : MessageOutput) (text : String) : MessageOutput :=
  { output with text := output.text.map (· ++ text) }

def tell (output : MessageOutput) (events : List Event) : MessageOutput :=
  { output with events := output.events ++ events }

/-- The output with a formatted number added, if the number is ever formatted. -/
def appendNumber (output : MessageOutput) (value : Double) (locale : String)
    (options : NumberOptions) : MessageOutput :=
  let (written, numbers, events) := output.numbers.format value locale options
  { output with text := do return (← output.text) ++ (← written), numbers }.tell events

end MessageOutput

def MessageNumberStyle.options : MessageNumberStyle → NumberOptions
  | standard => {}
  | integer => .integer
  | percent => .percent
  | compact => .compact
  | currency code => .ofCurrency code

namespace MessageScope

def lookup? (scope : MessageScope) (name : String) : Option ParameterValue :=
  scope.parameters.lookupPath? name.toList

/-- The number that an argument is read as. -/
def number? (scope : MessageScope) (name : String) : Option Double :=
  (scope.lookup? name).bind ParameterValue.toNumber?

/-- The count that an argument is read as; zero when it is no finite number. -/
def count (scope : MessageScope) (name : String) : Double :=
  match scope.number? name with
  | some value => if value.isFinite then value else .zero
  | none => .zero

/-- A number that is missing is told by the argument's name. -/
def numberEvents (scope : MessageScope) (name : String) : List Event :=
  match scope.number? name with
  | some _ => []
  | none =>
      [{ target := "lexis.icu"
         level := .debug
         message := "number argument missing or not numeric"
         fields := [("name", name)] }]

/-- A count that is missing or not finite is told with what was found. -/
def countEvents (scope : MessageScope) (name : String) : List Event :=
  let warning (found : String) : Event :=
    { target := "lexis.icu"
      level := .warn
      message := "plural argument missing or not a finite number, using 0"
      fields := [("name", name), ("found", found)] }
  match scope.number? name with
  | some value =>
      if value.isFinite then [] else [warning s!"Some({PluralCount.describe value})"]
  | none => [warning "None"]

/-- The text that chooses among the branches of a selection. -/
def selector? (scope : MessageScope) (name : String) : Option String :=
  (scope.lookup? name).bind ParameterValue.display?

end MessageScope

/-- The integer that a count names for exact branches, when it is whole and below `2 ^ 63`. -/
def exactCount? (value : Double) : Option Int :=
  match value.toInt? with
  | some integer => if integer.natAbs < 2 ^ 63 then some integer else none
  | none => none

namespace MessageScope

mutual

/-- The output with a part of a message added. -/
def addNode (scope : MessageScope) (output : MessageOutput) : MessageNode → MessageOutput
  | .text content => output.append content
  | .argument name source =>
      (output.append ((Template.resolve? scope.parameters name.toList).getD source)).tell
        (Template.resolveEvents scope.parameters name.toList)
  | .pound =>
      match scope.pound with
      | some value => output.appendNumber value scope.locale {}
      | none => output.append "#"
  | .number name style source =>
      match scope.number? name with
      | some value => output.appendNumber value scope.locale style.options
      | none => (output.append source).tell (scope.numberEvents name)
  | .plural name ordinal exact categories other =>
      let value := scope.count name
      let inner := { scope with pound := some value }
      let output := output.tell (scope.countEvents name)
      -- A branch for the integer goes before the one for the category, which is not asked for then.
      match (exactCount? value).bind fun key => addExact inner output key exact with
      | some output => output
      | none =>
          if ordinal then
            let (category, ordinals) := output.ordinals.category value scope.locale
            let output := { output with ordinals }
            (addCategory inner output category categories).getD (addNodes inner output other)
          else
            let category := scope.rules.select scope.locale value
            (addCategory inner output category categories).getD (addNodes inner output other)
  | .select name cases other =>
      match (scope.selector? name).bind fun key => addCase scope output key cases with
      | some output => output
      | none => addNodes scope output other

/-- The output with the parts of a message added, up to a number that is formatted without end. -/
def addNodes (scope : MessageScope) (output : MessageOutput) : Message → MessageOutput
  | [] => output
  | node :: rest =>
      if output.text.isSome then addNodes scope (addNode scope output node) rest else output

/-- The output with the branch of an integer added, if there is one. -/
def addExact (scope : MessageScope) (output : MessageOutput) (key : Int) :
    List (Int × List MessageNode) → Option MessageOutput
  | [] => none
  | (selector, body) :: rest =>
      if key = selector then some (addNodes scope output body)
      else addExact scope output key rest

/-- The output with the branch of a category added, if there is one. -/
def addCategory (scope : MessageScope) (output : MessageOutput) (key : PluralCategory) :
    List (PluralCategory × List MessageNode) → Option MessageOutput
  | [] => none
  | (selector, body) :: rest =>
      if key = selector then some (addNodes scope output body)
      else addCategory scope output key rest

/-- The output with the branch of a text added, if there is one. -/
def addCase (scope : MessageScope) (output : MessageOutput) (key : String) :
    List (String × List MessageNode) → Option MessageOutput
  | [] => none
  | (selector, body) :: rest =>
      if key = selector then some (addNodes scope output body)
      else addCase scope output key rest

end

end MessageScope

/-- A formatter of messages that remembers the messages it has read. -/
structure MessageFormatter where
  numbers : NumberFormatter
  ordinals : OrdinalFormatter
  rules : PluralRules
  /-- The messages by their texts, if they are remembered at all. -/
  messages : Option (RecencyCache String Message)

namespace MessageFormatter

/-- The number of messages that are usually remembered. -/
def usualCapacity : Nat := 256

/-- A formatter of the given parts; without capacity no messages are remembered. -/
def ofParts (numbers : NumberFormatter) (rules : PluralRules) (capacity : Nat) :
    MessageFormatter where
  numbers := numbers
  ordinals :=
    if numbers.native then .ofCapacity OrdinalFormatter.usualCapacity else .manual
  rules := rules
  messages := if capacity = 0 then none else some (.empty capacity)

instance : Inhabited MessageFormatter := ⟨ofParts default {} usualCapacity⟩

/-- The message that a text is read as, remembered or read. -/
def read (formatter : MessageFormatter) (text : String) :
    Message × MessageFormatter × List Event :=
  match formatter.messages with
  | none => (Message.ofText text, formatter, (Message.faults text).map Message.faultEvent)
  | some messages =>
      match messages.get text with
      | (some message, messages) => (message, { formatter with messages := some messages }, [])
      | (none, messages) =>
          let message := Message.ofText text
          let messages := (messages.set text message).2
          (message, { formatter with messages := some messages },
            (Message.faults text).map Message.faultEvent)

def remembered (formatter : MessageFormatter) : Nat :=
  match formatter.messages with
  | none => 0
  | some messages => messages.size

def clear (formatter : MessageFormatter) : MessageFormatter :=
  { formatter with messages := formatter.messages.map RecencyCache.clear }

/-- The text of a message for parameters and a locale. There is none when the call never returns. -/
def format (formatter : MessageFormatter) (text : String) (parameters : Parameters)
    (locale : String) : Option String × MessageFormatter × List Event :=
  let (message, formatter, events) := formatter.read text
  let scope : MessageScope := { parameters, locale, rules := formatter.rules, pound := none }
  let output : MessageOutput :=
    { text := some "", numbers := formatter.numbers, ordinals := formatter.ordinals, events }
  let output := scope.addNodes output message
  (output.text, { formatter with numbers := output.numbers, ordinals := output.ordinals },
    output.events)

def describe (formatter : MessageFormatter) : String :=
  "MessageFormatter \x7b numbers: " ++ formatter.numbers.describe ++ ", rules: " ++
    formatter.rules.describe ++ s!", cached_messages: {formatter.remembered} \x7d"

end MessageFormatter

end LocalizedText
