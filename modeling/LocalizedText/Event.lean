/-!
# Diagnostic events

Nothing in the library fails while it answers; what went wrong on the way is told by events. Every
operation that may have something to tell has a companion that lists its events, oldest first.
-/

namespace LocalizedText

/-- How much an event matters. -/
inductive EventLevel where
  | debug
  | warn
deriving DecidableEq

/-- Something worth telling about an operation. -/
structure Event where
  /-- The part of the library that tells it. -/
  target : String
  level : EventLevel
  message : String
  /-- Details by name. -/
  fields : List (String × String)
deriving DecidableEq

def EventLevel.name : EventLevel → String
  | .debug => "DEBUG"
  | .warn => "WARN"

end LocalizedText
