import LocalizedText.Dictionary.Coverage
import LocalizedText.Proofs.Dictionary.Resolution
import Mathlib.Data.List.Sort
import Mathlib.Data.String.Basic

/-!
# What a coverage report says

The keys of a dictionary are the leaf keys of all its locales, each listed once and in ascending order.
Of a locale those are missing that resolve neither in the locale nor in the fallback; what is missing
is listed in the same way, and together with what is present it makes up all keys.
-/

namespace LocalizedText

section Repetitions

variable {α : Type} [LinearOrder α] [BEq α] [LawfulBEq α]

omit [LinearOrder α] in
theorem mem_eraseRepsBy_loop (last : α) (rest kept : List α) (item : α) :
    item ∈ List.eraseRepsBy.loop (· == ·) last rest kept ↔
      item ∈ kept ∨ item = last ∨ item ∈ rest := by
  induction rest generalizing last kept with
  | nil => simp [List.eraseRepsBy.loop, or_comm]
  | cons next rest inductionHypothesis =>
      rw [List.eraseRepsBy.loop]
      split
      · next same =>
          rw [inductionHypothesis, eq_of_beq same, List.mem_cons]
          tauto
      · rw [inductionHypothesis, List.mem_cons, List.mem_cons]
        tauto

omit [LinearOrder α] in
/-- Repetitions are erased, but no item is. -/
theorem mem_eraseReps {list : List α} {item : α} : item ∈ list.eraseReps ↔ item ∈ list := by
  cases list with
  | nil => rfl
  | cons first rest =>
      rw [List.eraseReps, List.eraseRepsBy, mem_eraseRepsBy_loop]
      simp

/-- What was kept so far stands strictly below the rest, the last item of which may still be repeated. -/
theorem pairwise_eraseRepsBy_loop {last : α} {rest kept : List α}
    (below : (kept.reverse ++ [last]).Pairwise (· < ·)) (sorted : (last :: rest).Pairwise (· ≤ ·)) :
    (List.eraseRepsBy.loop (· == ·) last rest kept).Pairwise (· < ·) := by
  induction rest generalizing last kept with
  | nil => simpa [List.eraseRepsBy.loop] using below
  | cons next rest inductionHypothesis =>
      rcases List.pairwise_cons.mp sorted with ⟨least, tail⟩
      rw [List.eraseRepsBy.loop]
      split
      · next same =>
          rw [eq_of_beq same] at below ⊢
          exact inductionHypothesis below tail
      · next different =>
          have larger : last < next := by
            apply lt_of_le_of_ne (least next (by simp))
            simpa using different
          refine inductionHypothesis ?_ tail
          rw [List.reverse_cons, List.pairwise_append]
          refine ⟨below, List.pairwise_singleton _ _, ?_⟩
          rintro item member _ isNext
          rw [List.mem_singleton.mp isNext]
          rcases List.mem_append.mp member with before | isLast
          · exact ((List.pairwise_append.mp below).2.2 item before last (by simp)).trans larger
          · rwa [List.mem_singleton.mp isLast]

/-- Sorted items without repetitions stand in strictly ascending order. -/
theorem pairwise_eraseReps {list : List α} (sorted : list.Pairwise (· ≤ ·)) :
    list.eraseReps.Pairwise (· < ·) := by
  cases list with
  | nil => exact List.Pairwise.nil
  | cons first rest => exact pairwise_eraseRepsBy_loop (by simp) sorted

end Repetitions

namespace Dictionary

variable {dictionary : Dictionary} {locale fallback key : String} {keys : List String}

theorem pairwise_sortTexts (texts : List String) : (sortTexts texts).Pairwise (· ≤ ·) :=
  List.pairwise_mergeSort' (· ≤ ·) texts

/-- The keys of a dictionary are the leaf keys of its locales. -/
theorem mem_allKeys : key ∈ dictionary.allKeys ↔
    ∃ locale ∈ dictionary.locales, key ∈ Entries.leafKeys locale.2 := by
  rw [allKeys, mem_eraseReps, sortTexts, List.mem_mergeSort, List.mem_flatMap]

theorem pairwise_allKeys (dictionary : Dictionary) : dictionary.allKeys.Pairwise (· < ·) :=
  pairwise_eraseReps (pairwise_sortTexts _)

/-- A key is missing when neither the locale nor the fallback has a text or plural forms for it. -/
theorem mem_missingKeys : key ∈ dictionary.missingKeys locale fallback keys ↔
    key ∈ keys ∧ dictionary.resolveIn? locale key = none ∧
      dictionary.resolveIn? fallback key = none := by
  rw [missingKeys, sortTexts, List.mem_mergeSort, List.mem_filter, Option.isNone_iff_eq_none,
    resolve?_eq_none_iff]

/-- Of different keys those that are missing stand in strictly ascending order. -/
theorem pairwise_missingKeys (distinct : keys.Nodup) :
    (dictionary.missingKeys locale fallback keys).Pairwise (· < ·) := by
  have once : (dictionary.missingKeys locale fallback keys).Nodup := by
    rw [missingKeys, sortTexts, (List.mergeSort_perm _ _).nodup_iff]
    exact distinct.filter _
  refine ((pairwise_sortTexts _).and once).imp ?_
  rintro first second ⟨atMost, different⟩
  exact lt_of_le_of_ne atMost different

theorem length_missingKeys_le (dictionary : Dictionary) (locale fallback : String)
    (keys : List String) : (dictionary.missingKeys locale fallback keys).length ≤ keys.length := by
  rw [missingKeys, sortTexts, List.length_mergeSort]
  exact List.length_filter_le _ _

/-- The reports on the locales, one for each. -/
theorem mem_locales_coverage {report : LocaleCoverage} :
    report ∈ (dictionary.coverage fallback).locales ↔
      ∃ locale ∈ dictionary.tags,
        report = dictionary.coverageOf fallback dictionary.allKeys locale := by
  simp [coverage, eq_comm]

/-- There is one report on each locale, in the order of the locales. -/
theorem map_locale_coverage (dictionary : Dictionary) (fallback : String) :
    (dictionary.coverage fallback).locales.map LocaleCoverage.locale = dictionary.tags := by
  simp [coverage, coverageOf, Function.comp_def]

/-- What is present and what is missing make up all keys. -/
theorem present_add_length_missing (dictionary : Dictionary) (fallback : String)
    (keys : List String) (locale : String) :
    (dictionary.coverageOf fallback keys locale).present +
      (dictionary.coverageOf fallback keys locale).missing.length = keys.length :=
  Nat.sub_add_cancel (dictionary.length_missingKeys_le locale fallback keys)

end Dictionary

end LocalizedText
