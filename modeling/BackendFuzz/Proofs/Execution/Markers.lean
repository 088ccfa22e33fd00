import BackendFuzz.Execution.Status
import BackendFuzz.Proofs.Text.Lowercase

/-!
# The normal form of a marker

The status of a marker is made of the lower case of its words, so only the words count.
What is in lower case stays as it is, and a status has no blank: it is one word, which is
its own status.
-/

namespace BackendFuzz

open Text

theorem forall_mem_intercalate {p : Char → Prop} {separator : String} {parts : List String}
    (hseparator : ∀ c ∈ separator.toList, p c) (hparts : ∀ s ∈ parts, ∀ c ∈ s.toList, p c) :
    ∀ c ∈ (separator.intercalate parts).toList, p c := by
  induction parts with
  | nil => simp
  | cons s parts ih =>
    rw [List.forall_mem_cons] at hparts
    cases parts with
    | nil =>
      rw [String.intercalate_singleton]
      exact hparts.1
    | cons t parts =>
      rw [String.intercalate_cons_cons, String.toList_append, String.toList_append]
      exact List.forall_mem_append.mpr
        ⟨List.forall_mem_append.mpr ⟨hparts.1, hseparator⟩, ih hparts.2⟩

theorem normalizeStatus_eq (marker : String) : normalizeStatus marker =
    "-".intercalate ((words marker.toList).map fun w => String.ofList (lower w)) := by
  rw [normalizeStatus, words_lower, words_trim, List.map_map]
  rfl

theorem normalizeStatus_not_blank (marker : String) :
    ∀ c ∈ (normalizeStatus marker).toList, isBlank c = false := by
  have hhyphen : ∀ c ∈ "-".toList, isBlank c = false := List.forall_mem_singleton.mpr (by decide)
  rw [normalizeStatus_eq]
  refine forall_mem_intercalate hhyphen (List.forall_mem_map.mpr fun w hw => ?_)
  rw [String.toList_ofList]
  exact (unbroken_of_mem_words hw).lower.2

theorem normalizeStatus_small (marker : String) :
    ∀ c ∈ (normalizeStatus marker).toList, Small c := by
  have hhyphen : ∀ c ∈ "-".toList, Small c := List.forall_mem_singleton.mpr (by decide +kernel)
  rw [normalizeStatus_eq]
  refine forall_mem_intercalate hhyphen (List.forall_mem_map.mpr fun w _ => ?_)
  rw [String.toList_ofList]
  exact lowerFrom_makes_small [] w

theorem normalizeStatus_eq_self {s : String} (hblank : ∀ c ∈ s.toList, isBlank c = false)
    (hsmall : ∀ c ∈ s.toList, Small c) : normalizeStatus s = s := by
  rw [normalizeStatus_eq]
  by_cases hne : s.toList = []
  · rw [hne, String.toList_eq_nil_iff.mp hne]
    rfl
  · have hlower : lower s.toList = s.toList := lowerFrom_small hsmall []
    rw [words_unbroken ⟨hne, hblank⟩, List.map_singleton, hlower, String.ofList_toList,
      String.intercalate_singleton]

/-- A status is a normal form: it is its own status, it holds no white space, and it depends on
nothing but the words of the marker, in whatever white space they are laid out. -/
theorem status_is_a_normal_form (marker : String) :
    normalizeStatus (normalizeStatus marker) = normalizeStatus marker ∧
    (∀ c ∈ (normalizeStatus marker).toList, isBlank c = false) ∧
    (∀ marker', words marker.toList = words marker'.toList →
      normalizeStatus marker = normalizeStatus marker') ∧
    ∃ ws, Laid ws marker.toList ∧ ∀ marker', Laid ws marker'.toList →
      normalizeStatus marker = normalizeStatus marker' := by
  have hsame : ∀ marker', words marker.toList = words marker'.toList →
      normalizeStatus marker = normalizeStatus marker' := by
    intro marker' h
    rw [normalizeStatus_eq, normalizeStatus_eq, h]
  exact ⟨normalizeStatus_eq_self (normalizeStatus_not_blank marker) (normalizeStatus_small marker),
    normalizeStatus_not_blank marker, hsame, words marker.toList, laid_words marker.toList,
    fun marker' h => hsame marker' h.words_eq.symm⟩

theorem status_is_a_normal_form_spaced :
    normalizeStatus "OUT OF  ΓΑΣ" = "out-of-γας" ∧
    normalizeStatus "\t\u00a0OUT\u2003\n OF\r\nΓΑΣ\u3000" = "out-of-γας" := by
  have hwords : words "OUT OF  ΓΑΣ".toList = words "\t\u00a0OUT\u2003\n OF\r\nΓΑΣ\u3000".toList := by
    decide +kernel
  have hfirst : normalizeStatus "OUT OF  ΓΑΣ" = "out-of-γας" := by decide +kernel
  obtain ⟨-, -, hsame, -⟩ := status_is_a_normal_form "OUT OF  ΓΑΣ"
  exact ⟨hfirst, (hsame _ hwords).symm.trans hfirst⟩

end BackendFuzz
