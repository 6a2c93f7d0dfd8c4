import LocalizedText.Dictionary.Basic
import LocalizedText.Event

/-!
# Checking dictionaries

Wherever a category keyword is a name, the name `other` should be there too, so that every count has
a text. The places where it is missing are reported when a dictionary is loaded; they do not prevent
its use.
-/

namespace LocalizedText

/-- A place with a category keyword but without `other`. -/
structure ValidationIssue where
  locale : String
  /-- The dotted path of the place; empty for the locale itself. -/
  key : String
deriving DecidableEq

/-- The issues of a dictionary, in ascending order of locales and keys. -/
structure ValidationReport where
  issues : List ValidationIssue := []
deriving DecidableEq

instance : Inhabited ValidationReport := ⟨{}⟩

namespace ValidationReport

/-- There is nothing to report. -/
def isClean (report : ValidationReport) : Bool :=
  report.issues.isEmpty

end ValidationReport

namespace Entries

/-- The names include a category keyword, but not `other`. -/
def lacksOther (names : List String) : Bool :=
  names.any PluralCategory.isKeyword && !names.contains PluralCategory.other.name

mutual

/-- The paths of the issues at or below an entry on a path. -/
def issuesOf (path : String) : Entry → List String
  | .text _ => []
  | .plural forms => if forms.isComplete then [] else [path]
  | .node children =>
      issuesBelow path children ++
        if lacksOther (children.map Prod.fst) then [path] else []

/-- The paths of the issues of the entries below a path. -/
def issuesBelow (path : String) : List (String × Entry) → List String
  | [] => []
  | (name, entry) :: rest => issuesOf (joinPath path name) entry ++ issuesBelow path rest

end

/-- The report on the entries of a locale. -/
def validate (locale : String) (entries : Entries) : ValidationReport :=
  let keys := issuesOf "" (.node entries)
  ⟨(keys.mergeSort fun left right => decide (left ≤ right)).map fun key => { locale, key }⟩

end Entries

namespace ValidationIssue

/-- What is told about an issue. -/
def event (issue : ValidationIssue) : Event where
  target := "lexis.validate"
  level := .warn
  message := "plural entry has no `other` variant"
  fields := [("locale", issue.locale), ("key", issue.key)]

end ValidationIssue

namespace ValidationReport

/-- What is told about a report. -/
def events (report : ValidationReport) : List Event :=
  report.issues.map ValidationIssue.event

end ValidationReport

namespace Dictionary

/-- The report on all locales. -/
def validate (dictionary : Dictionary) : ValidationReport :=
  ⟨dictionary.locales.flatMap fun (locale, entries) => (Entries.validate locale entries).issues⟩

end Dictionary

end LocalizedText
