import LocalizedText.Event
import LocalizedText.Parameter.Basic

/-!
# Templates

A template is a text with placeholders, a path between braces. It is split once, whatever the
parameters are: into literal runs, placeholders up to their first closing delimiter, and possibly a
tail whose opening delimiter is never closed. Filling it in replaces each placeholder by the text of
the value on its path, or keeps it as it is written; what was filled in is not read again.
-/

namespace LocalizedText

/-- The delimiters of placeholders. -/
inductive BraceStyle where
  /-- Two braces on each side, as in dictionaries. -/
  | double
  /-- One brace on each side, as in messages. -/
  | single
deriving DecidableEq

namespace BraceStyle

def opening : BraceStyle → List Char
  | double => ['\x7b', '\x7b']
  | single => ['\x7b']

def closing : BraceStyle → List Char
  | double => ['\x7d', '\x7d']
  | single => ['\x7d']

theorem opening_length_pos (style : BraceStyle) : 0 < style.opening.length := by
  cases style <;> decide

end BraceStyle

namespace Text

/-- The text before the first occurrence of a pattern, and the text after it. -/
def splitAtFirst? (pattern : List Char) : List Char → Option (List Char × List Char)
  | [] => if pattern.isEmpty then some ([], []) else none
  | character :: rest =>
      if pattern.isPrefixOf (character :: rest) then
        some ([], (character :: rest).drop pattern.length)
      else
        (splitAtFirst? pattern rest).map fun (before, after) => (character :: before, after)

theorem splitAtFirst?_eq_some {pattern text before after : List Char}
    (found : splitAtFirst? pattern text = some (before, after)) :
    text = before ++ pattern ++ after := by
  induction text generalizing before after with
  | nil =>
    unfold splitAtFirst? at found
    split at found
    · next noPattern =>
      cases found
      simpa using noPattern
    · cases found
  | cons character rest ih =>
    unfold splitAtFirst? at found
    split at found
    · next here =>
      cases found
      obtain ⟨tail, split⟩ := List.isPrefixOf_iff_prefix.1 here
      simp [← split]
    · obtain ⟨⟨before', after'⟩, inner, equal⟩ := Option.map_eq_some_iff.1 found
      cases equal
      simp [ih inner]

end Text

/-- A part of a template. -/
inductive TemplatePart where
  | literal (text : List Char)
  /-- A placeholder, by what stands between its delimiters. -/
  | placeholder (body : List Char)
  /-- An opening delimiter that is not closed, and all that follows it. -/
  | tail (text : List Char)
deriving DecidableEq

namespace Template

/-- The parts of a template. -/
def split (style : BraceStyle) (text : List Char) : List TemplatePart :=
  match found : Text.splitAtFirst? style.opening text with
  | none => [.literal text]
  | some (before, inside) =>
      match closed : Text.splitAtFirst? style.closing inside with
      | none => [.literal before, .tail (style.opening ++ inside)]
      | some (body, after) =>
          have shorter : after.length < text.length := by
            have outer := congrArg List.length (Text.splitAtFirst?_eq_some found)
            have inner := congrArg List.length (Text.splitAtFirst?_eq_some closed)
            have positive := style.opening_length_pos
            simp only [List.length_append] at outer inner
            omega
          .literal before :: .placeholder body :: split style after
termination_by text.length

/-- The text of the value on a path, if it leads to a value with a text. -/
def resolve? (parameters : Parameters) (path : List Char) : Option String :=
  if path.isEmpty then none
  else (parameters.lookupPath? path).bind ParameterValue.display?

/-- What is told about a path that leads to no value, or to a value without a text. -/
def resolveEvents (parameters : Parameters) (path : List Char) : List Event :=
  if path.isEmpty then []
  else
    match parameters.lookupPath? path with
    | none =>
        [{ target := "lexis.interpolate"
           level := .debug
           message := "placeholder has no matching parameter"
           fields := [("path", String.ofList path)] }]
    | some value =>
        if value.display?.isNone then
          [{ target := "lexis.interpolate"
             level := .warn
             message := "parameter cannot be interpolated, placeholder left as-is"
             fields := [("path", String.ofList path), ("kind", value.kind)] }]
        else []

/-- The text of a part. -/
def fillPart (style : BraceStyle) (parameters : Parameters) : TemplatePart → List Char
  | .literal text => text
  | .tail text => text
  | .placeholder body =>
      match resolve? parameters (Text.trim body) with
      | some text => text.toList
      | none => style.opening ++ body ++ style.closing

/-- The template with its placeholders filled in. -/
def fill (style : BraceStyle) (template : String) (parameters : Parameters) : String :=
  String.ofList ((split style template.toList).flatMap (fillPart style parameters))

/-- What is told while a template is filled in. -/
def fillEvents (style : BraceStyle) (template : String) (parameters : Parameters) : List Event :=
  (split style template.toList).flatMap fun part =>
    match part with
    | .placeholder body => resolveEvents parameters (Text.trim body)
    | _ => []

end Template

end LocalizedText
