import LocalizedText.Template
import Mathlib.Data.List.Infix

/-!
# How templates are taken apart

There is one way to take a template apart: an opening delimiter counts where it first occurs, and a
placeholder ends at the first closing delimiter after it. Since the parts are found before any
parameter is looked at, what a template shows is put together from what each of its parts shows, and
nothing that was filled in is taken apart again.
-/

namespace LocalizedText

namespace Text

/-- A text is taken apart at the first occurrence of a pattern. -/
structure SplitsAtFirst (pattern text before after : List Char) : Prop where
  joined : text = before ++ pattern ++ after
  first : ∀ earlier later, text = earlier ++ pattern ++ later → before.length ≤ earlier.length

section Patterns

variable {pattern text before after : List Char}

theorem SplitsAtFirst.isInfix (split : SplitsAtFirst pattern text before after) :
    pattern <:+: text :=
  ⟨before, after, split.joined.symm⟩

theorem SplitsAtFirst.unique {otherBefore otherAfter : List Char}
    (split : SplitsAtFirst pattern text before after)
    (other : SplitsAtFirst pattern text otherBefore otherAfter) :
    before = otherBefore ∧ after = otherAfter := by
  have sameLength : before.length = otherBefore.length := by
    apply Nat.le_antisymm
    · exact split.first _ _ other.joined
    · exact other.first _ _ split.joined
  have joined : before ++ (pattern ++ after) = otherBefore ++ (pattern ++ otherAfter) := by
    simpa using split.joined.symm.trans other.joined
  rcases List.append_inj joined sameLength with ⟨sameBefore, sameAfter⟩
  exact ⟨sameBefore, List.append_cancel_left sameAfter⟩

/-- The pattern does not occur in what stands before its first occurrence. -/
theorem SplitsAtFirst.not_isInfix (split : SplitsAtFirst pattern text before after)
    (nonempty : 0 < pattern.length) : ¬ pattern <:+: before := by
  rintro ⟨earlier, between, rfl⟩
  have least := split.first earlier (between ++ pattern ++ after) (by simp [split.joined])
  simp only [List.length_append] at least
  omega

theorem splitAtFirst?_eq_none_iff : splitAtFirst? pattern text = none ↔ ¬ pattern <:+: text := by
  induction text with
  | nil => simp [splitAtFirst?]
  | cons character rest inductionHypothesis =>
      rw [splitAtFirst?, List.infix_cons_iff, ← List.isPrefixOf_iff_prefix]
      cases here : pattern.isPrefixOf (character :: rest) with
      | true => simp
      | false => simp [inductionHypothesis]

theorem splitsAtFirst_of_splitAtFirst? (found : splitAtFirst? pattern text = some (before, after)) :
    SplitsAtFirst pattern text before after := by
  refine ⟨splitAtFirst?_eq_some found, ?_⟩
  induction text generalizing before after with
  | nil =>
      intro earlier later joined
      have noBefore := splitAtFirst?_eq_some found
      simp only [List.nil_eq, List.append_eq_nil_iff] at noBefore
      simp [noBefore]
  | cons character rest inductionHypothesis =>
      intro earlier later joined
      rw [splitAtFirst?] at found
      split at found
      · cases found
        simp
      · next absent =>
          rcases Option.map_eq_some_iff.mp found with ⟨⟨inner, _⟩, innerFound, same⟩
          cases same
          cases earlier with
          | nil =>
              have present : pattern <+: character :: rest := ⟨later, by simp [joined]⟩
              exact absurd (List.isPrefixOf_iff_prefix.mpr present) absent
          | cons _ earlier =>
              simp only [List.cons_append, List.cons.injEq] at joined
              have least := inductionHypothesis innerFound earlier later joined.2
              simpa using least

theorem not_isPrefix_of_not_mem {character : Char} (nonempty : 0 < pattern.length)
    (absent : character ∉ pattern) : ¬ pattern <+: character :: text := by
  rintro ⟨later, joined⟩
  rcases List.exists_cons_of_length_pos nonempty with ⟨first, others, rfl⟩
  simp only [List.cons_append, List.cons.injEq] at joined
  exact absent (joined.1 ▸ List.mem_cons_self ..)

/-- In front of a text, a character that is not in a pattern leaves its first occurrence. -/
theorem SplitsAtFirst.cons {character : Char} (split : SplitsAtFirst pattern text before after)
    (nonempty : 0 < pattern.length) (absent : character ∉ pattern) :
    SplitsAtFirst pattern (character :: text) (character :: before) after := by
  refine ⟨by simp [split.joined], ?_⟩
  intro earlier later joined
  cases earlier with
  | nil =>
      have present : pattern <+: character :: text := ⟨later, by simp [joined]⟩
      exact absurd present (not_isPrefix_of_not_mem nonempty absent)
  | cons first earlier =>
      simp only [List.cons_append, List.cons.injEq] at joined
      simpa using split.first earlier later joined.2

/-- A pattern of one character first occurs behind a text without the character. -/
theorem splitsAtFirst_singleton {character : Char} (absent : character ∉ before)
    (after : List Char) :
    SplitsAtFirst [character] (before ++ character :: after) before after := by
  induction before with
  | nil => exact ⟨rfl, fun _ _ _ => Nat.zero_le _⟩
  | cons first before inductionHypothesis =>
      rw [List.mem_cons, not_or] at absent
      rcases absent with ⟨different, others⟩
      exact (inductionHypothesis others).cons Nat.zero_lt_one
        (by simpa using Ne.symm different)

end Patterns

end Text

namespace Template

open Text

/-- The parts that a text is taken apart into, from its start on. -/
inductive IsSplit (style : BraceStyle) : List Char → List TemplatePart → Prop where
  | literal {text : List Char} (unopened : ¬ style.opening <:+: text) :
      IsSplit style text [.literal text]
  | tail {text run inside : List Char} (opened : SplitsAtFirst style.opening text run inside)
      (unclosed : ¬ style.closing <:+: inside) :
      IsSplit style text [.literal run, .tail (style.opening ++ inside)]
  | placeholder {text run inside body rest : List Char} {parts : List TemplatePart}
      (opened : SplitsAtFirst style.opening text run inside)
      (closed : SplitsAtFirst style.closing inside body rest) (others : IsSplit style rest parts) :
      IsSplit style text (.literal run :: .placeholder body :: parts)

/-- A part as it is written. -/
def written (style : BraceStyle) : TemplatePart → List Char
  | .literal text => text
  | .placeholder body => style.opening ++ body ++ style.closing
  | .tail text => text

/--
What a part shows. A placeholder shows the text, number, truth value or date that its path leads to,
and is shown as it is written when there is no path or it leads to nothing of the kind.
-/
def shown (style : BraceStyle) (parameters : Parameters) : TemplatePart → List Char
  | .placeholder body =>
      if trim body = [] then written style (.placeholder body)
      else
        match parameters.lookupPath? (trim body) with
        | some (.text value) => value.toList
        | some (.number value) => value.display.toList
        | some (.truth value) => (if value then "true" else "false").toList
        | some (.date value) => value.text.toList
        | _ => written style (.placeholder body)
  | part => written style part

section Split

variable {style : BraceStyle} {text : List Char} {parts : List TemplatePart}

theorem isSplit_split (style : BraceStyle) (text : List Char) :
    IsSplit style text (split style text) := by
  fun_induction split style text with
  | case1 text unopened =>
      exact .literal (splitAtFirst?_eq_none_iff.mp unopened)
  | case2 text run inside opened unclosed =>
      exact .tail (splitsAtFirst_of_splitAtFirst? opened) (splitAtFirst?_eq_none_iff.mp unclosed)
  | case3 text run inside opened body rest closed _ inductionHypothesis =>
      exact .placeholder (splitsAtFirst_of_splitAtFirst? opened)
        (splitsAtFirst_of_splitAtFirst? closed) inductionHypothesis

/-- Braces are counted from the left, on both sides of a placeholder. -/
example : split .double ['\x7b', '\x7b', '\x7b', 'x', '\x7d', '\x7d', '\x7d'] =
    [.literal [], .placeholder ['\x7b', 'x'], .literal ['\x7d']] := by
  cbv

theorem IsSplit.unique {others : List TemplatePart} (first : IsSplit style text parts)
    (second : IsSplit style text others) : parts = others := by
  induction first generalizing others with
  | literal unopened =>
      cases second with
      | literal _ => rfl
      | tail opened _ => exact absurd opened.isInfix unopened
      | placeholder opened _ _ => exact absurd opened.isInfix unopened
  | tail opened unclosed =>
      cases second with
      | literal unopened => exact absurd opened.isInfix unopened
      | tail otherOpened _ =>
          rcases opened.unique otherOpened with ⟨rfl, rfl⟩
          rfl
      | placeholder otherOpened closed _ =>
          rcases opened.unique otherOpened with ⟨rfl, rfl⟩
          exact absurd closed.isInfix unclosed
  | placeholder opened closed _ inductionHypothesis =>
      cases second with
      | literal unopened => exact absurd opened.isInfix unopened
      | tail otherOpened unclosed =>
          rcases opened.unique otherOpened with ⟨rfl, rfl⟩
          exact absurd closed.isInfix unclosed
      | placeholder otherOpened otherClosed rest =>
          rcases opened.unique otherOpened with ⟨rfl, rfl⟩
          rcases closed.unique otherClosed with ⟨rfl, rfl⟩
          rw [inductionHypothesis rest]

theorem split_nil (style : BraceStyle) : split style [] = [.literal []] := by
  apply (isSplit_split style []).unique
  apply IsSplit.literal
  cases style <;> decide

/-- A character that is not in an opening delimiter joins the literal run that it stands before. -/
theorem split_character {character : Char} (noOpening : character ∉ style.opening)
    (text : List Char) :
    ∃ run others, split style text = .literal run :: others ∧
      split style (character :: text) = .literal (character :: run) :: others := by
  have joins {text : List Char} {parts : List TemplatePart} (own : IsSplit style text parts) :
      ∃ run others, parts = .literal run :: others ∧
        IsSplit style (character :: text) (.literal (character :: run) :: others) := by
    cases own with
    | literal unopened =>
        refine ⟨text, [], rfl, .literal ?_⟩
        rw [List.infix_cons_iff, not_or]
        exact ⟨not_isPrefix_of_not_mem style.opening_length_pos noOpening, unopened⟩
    | tail opened unclosed =>
        exact ⟨_, _, rfl, .tail (opened.cons style.opening_length_pos noOpening) unclosed⟩
    | placeholder opened closed others =>
        exact ⟨_, _, rfl,
          .placeholder (opened.cons style.opening_length_pos noOpening) closed others⟩
  rcases joins (isSplit_split style text) with ⟨run, others, parts, joined⟩
  exact ⟨run, others, parts, (isSplit_split style (character :: text)).unique joined⟩

/-- A placeholder between single braces ends at the first closing one. -/
theorem split_placeholder {body : List Char} (unclosed : '\x7d' ∉ body) (rest : List Char) :
    split .single ('\x7b' :: (body ++ '\x7d' :: rest)) =
      .literal [] :: .placeholder body :: split .single rest :=
  (isSplit_split .single _).unique
    (.placeholder (splitsAtFirst_singleton List.not_mem_nil _)
      (splitsAtFirst_singleton unclosed rest) (isSplit_split .single rest))

/-- The parts make up the text. -/
theorem IsSplit.flatMap_written (split : IsSplit style text parts) :
    parts.flatMap (written style) = text := by
  induction split with
  | literal _ => simp [written]
  | tail opened _ => simp [written, opened.joined]
  | placeholder opened closed _ inductionHypothesis =>
      simp [written, inductionHypothesis, opened.joined, closed.joined]

theorem IsSplit.not_isInfix_of_literal (split : IsSplit style text parts) {run : List Char}
    (member : .literal run ∈ parts) : ¬ style.opening <:+: run := by
  induction split with
  | literal unopened =>
      cases List.mem_singleton.mp member
      exact unopened
  | tail opened _ =>
      simp only [List.mem_cons, TemplatePart.literal.injEq, reduceCtorEq, List.not_mem_nil,
        or_false] at member
      rw [member]
      exact opened.not_isInfix style.opening_length_pos
  | placeholder opened _ _ inductionHypothesis =>
      rcases List.mem_cons.mp member with same | later
      · cases same
        exact opened.not_isInfix style.opening_length_pos
      · exact inductionHypothesis (by simpa using later)

end Split

theorem fillPart_eq_shown (style : BraceStyle) (parameters : Parameters) (part : TemplatePart) :
    fillPart style parameters part = shown style parameters part := by
  cases part with
  | literal text => rfl
  | tail text => rfl
  | placeholder body =>
      simp only [fillPart, shown, resolve?, List.isEmpty_iff]
      by_cases noPath : trim body = []
      · simp [noPath, written]
      · simp only [noPath, if_false]
        cases parameters.lookupPath? (trim body) with
        | none => rfl
        | some value => cases value <;> rfl

end Template

/-- Without parameters no path leads to a value. -/
theorem Parameters.lookupPath?_nil (path : List Char) :
    Parameters.lookupPath? [] path = none := by
  have names : path.splitOn '.' ≠ [] := List.splitOn_ne_nil _ _
  rcases List.exists_cons_of_ne_nil names with ⟨name, rest, split⟩
  unfold Parameters.lookupPath? pathNames
  rw [split]
  rfl

namespace Template

theorem shown_nil (style : BraceStyle) (part : TemplatePart) :
    shown style [] part = written style part := by
  cases part with
  | literal text => rfl
  | tail text => rfl
  | placeholder body => simp [shown, Parameters.lookupPath?_nil]

/--
A template has one split, and what it shows for any parameters is what the parts of the split show
for them. Without parameters it shows itself.
-/
theorem fill_eq_flatMap_shown (style : BraceStyle) (template : String) :
    ∃ parts, (∀ others, IsSplit style template.toList others ↔ others = parts) ∧
      parts.flatMap (written style) = template.toList ∧
      (∀ run, .literal run ∈ parts → ¬ style.opening <:+: run) ∧
      (∀ parameters,
        (fill style template parameters).toList = parts.flatMap (shown style parameters)) ∧
      fill style template [] = template := by
  have own := isSplit_split style template.toList
  have filled : ∀ parameters, (fill style template parameters).toList =
      (split style template.toList).flatMap (shown style parameters) := by
    intro parameters
    rw [fill, funext (fillPart_eq_shown style parameters)]
    simp
  refine ⟨split style template.toList, ?_, own.flatMap_written, ?_, filled, ?_⟩
  · intro others
    constructor
    · exact fun other => other.unique own
    · rintro rfl
      exact own
  · exact fun run member => own.not_isInfix_of_literal member
  · rw [← String.toList_inj, filled, funext (shown_nil style), own.flatMap_written]

end Template

end LocalizedText
