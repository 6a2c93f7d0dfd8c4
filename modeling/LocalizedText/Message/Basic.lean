import LocalizedText.Plural.Category

/-!
# Messages

A message is a text with clauses: arguments, formatted numbers, and branches chosen by a count or by
a text. Branches are kept in ascending order of what selects them; every branching clause also has
one for all other cases.
-/

namespace LocalizedText

/-- How a number in a message is formatted. -/
inductive MessageNumberStyle where
  | standard
  | integer
  | percent
  | compact
  | currency (code : String)
deriving DecidableEq

/-- A part of a message. -/
inductive MessageNode where
  | text (content : String)
  /-- A parameter, by its path; the source stands for it when it has no text. -/
  | argument (name source : String)
  /-- The number of the branch around it. -/
  | pound
  /-- A formatted number; the source stands for it when there is no number. -/
  | number (name : String) (style : MessageNumberStyle) (source : String)
  /-- Branches by a count: for exact integers, and for plural or ordinal categories. -/
  | plural (name : String) (ordinal : Bool) (exact : List (Int × List MessageNode))
      (categories : List (PluralCategory × List MessageNode)) (other : List MessageNode)
  /-- Branches by a text. -/
  | select (name : String) (cases : List (String × List MessageNode))
      (other : List MessageNode)

instance : Inhabited MessageNode := ⟨.pound⟩

/-- A message: its parts in order. -/
abbrev Message := List MessageNode

namespace Message

/-- A part that is text. -/
def isText : MessageNode → Bool
  | .text _ => true
  | _ => false

/-- The message has no clauses. -/
def isPlain (message : Message) : Bool :=
  message.all isText

/-- The message with a text in front, joined to a text that it starts with. -/
def consText (content : List Char) (message : Message) : Message :=
  if content.isEmpty then message
  else
    match message with
    | .text next :: rest => .text (String.ofList content ++ next) :: rest
    | message => .text (String.ofList content) :: message

end Message

end LocalizedText
