import BackendFuzz.Proofs.Text.Blank
import BackendFuzz.Text.Lowercase

/-!
# Lower case, word by word

Only a capital sigma is lower-cased by what stands around it, and it is never looked
past a blank. So the words of a text go to lower case each on its own, none of them turns
into a blank, and what is in lower case already stays as it is.
-/

namespace BackendFuzz.Text

/-! ## Across a blank -/

section
variable {b : Char} (hb : isBlank b = true)
include hb

theorem blank_not_ignorable : isCaseIgnorable b = false :=
  inRanges_of_disjoint (by decide +kernel) hb

theorem blank_not_cased : isCased b = false := inRanges_of_disjoint (by decide +kernel) hb

theorem lowerPartner_blank : lowerPartner b = b := by
  -- No run of capitals meets the blanks.
  have hapart : ∀ q ∈ blankRanges, ∀ r ∈ capitalRuns, q.2 < r.first ∨ r.last < q.1 := by
    decide +kernel
  obtain ⟨q, hq, hlow, hhigh⟩ := inRanges_iff.mp hb
  have hnone : capitalRuns.find? (·.holds b.toNat) = none := by
    rw [List.find?_eq_none]
    intro r hr hholds
    simp only [CaseRun.holds, Bool.and_eq_true, decide_eq_true_eq] at hholds
    have := hapart q hq r hr
    omega
  rw [lowerPartner, hnone]

theorem meetsCased_blank (xs ys : List Char) : meetsCased (xs ++ b :: ys) = meetsCased xs := by
  rw [meetsCased, meetsCased, List.dropWhile_append]
  cases hxs : xs.dropWhile isCaseIgnorable with
  | nil => simp [blank_not_ignorable hb, blank_not_cased hb]
  | cons c cs => simp

theorem lowerBetween_blank_before (before ys : List Char) (c : Char) (after : List Char) :
    lowerBetween (before ++ b :: ys) c after = lowerBetween before c after := by
  rw [lowerBetween, lowerBetween, meetsCased_blank hb]

theorem lowerBetween_blank_after (before : List Char) (c : Char) (after ys : List Char) :
    lowerBetween before c (after ++ b :: ys) = lowerBetween before c after := by
  rw [lowerBetween, lowerBetween, meetsCased_blank hb]

theorem lowerBetween_blank (before after : List Char) : lowerBetween before b after = [b] := by
  have hsigma : b ≠ 'Σ' := by rintro rfl; revert hb; decide
  have hdotted : b ≠ 'İ' := by rintro rfl; revert hb; decide
  rw [lowerBetween, if_neg hsigma, if_neg hdotted, lowerPartner_blank hb]

theorem lowerFrom_blank_before (before ys cs : List Char) :
    lowerFrom (before ++ b :: ys) cs = lowerFrom before cs := by
  induction cs generalizing before with
  | nil => rfl
  | cons c cs ih =>
    rw [lowerFrom, lowerFrom, lowerBetween_blank_before hb, ← ih (c :: before), List.cons_append]

theorem lowerFrom_blank (before xs ys : List Char) :
    lowerFrom before (xs ++ b :: ys) = lowerFrom before xs ++ b :: lower ys := by
  induction xs generalizing before with
  | nil =>
    have hrest : lowerFrom (b :: before) ys = lower ys := lowerFrom_blank_before hb [] before ys
    simp [lowerFrom, lowerBetween_blank hb, hrest]
  | cons c xs ih =>
    rw [List.cons_append, lowerFrom, lowerFrom, lowerBetween_blank_after hb, ih,
      List.append_assoc]

theorem lower_blank (xs ys : List Char) : lower (xs ++ b :: ys) = lower xs ++ b :: lower ys :=
  lowerFrom_blank hb [] xs ys

end

/-! ## Letters stay letters -/

theorem toNat_ofNat (n : Nat) : (Char.ofNat n).toNat = n ∨ (Char.ofNat n).toNat = 0 := by
  by_cases h : n.isValidChar
  · left
    rw [Char.ofNat, dif_pos h]
    rfl
  · right
    rw [Char.ofNat, dif_neg h]
    rfl

theorem lowerPartner_not_blank {c : Char} (h : isBlank c = false) :
    isBlank (lowerPartner c) = false := by
  -- No run of capitals has its partners among the blanks.
  have hapart : ∀ r ∈ capitalRuns, ∀ q ∈ blankRanges,
      0 < q.1 ∧ (r.last + r.shift < q.1 ∨ q.2 < r.first + r.shift) := by decide +kernel
  unfold lowerPartner
  split
  · rename_i r hr
    have hholds := List.find?_some hr
    simp only [CaseRun.holds, Bool.and_eq_true, decide_eq_true_eq] at hholds
    rw [isBlank, Bool.eq_false_iff, ne_eq, inRanges_iff]
    rintro ⟨q, hq, hlow, hhigh⟩
    have := hapart r (List.mem_of_find?_eq_some hr) q hq
    have := toNat_ofNat (Int.toNat (c.toNat + r.shift))
    omega
  · exact h

theorem lowerBetween_not_blank {before after : List Char} {c : Char} (h : isBlank c = false) :
    ∀ d ∈ lowerBetween before c after, isBlank d = false := by
  have hsigma : isBlank 'ς' = false ∧ isBlank 'σ' = false := by decide
  have hdotted : ∀ d ∈ ['i', '\u0307'], isBlank d = false := by
    rw [List.forall_mem_cons, List.forall_mem_singleton]
    decide
  unfold lowerBetween
  split
  · rw [List.forall_mem_singleton]
    split
    · exact hsigma.1
    · exact hsigma.2
  · split
    · exact hdotted
    · exact List.forall_mem_singleton.mpr (lowerPartner_not_blank h)

theorem lowerBetween_ne_nil (before : List Char) (c : Char) (after : List Char) :
    lowerBetween before c after ≠ [] := by
  unfold lowerBetween
  split_ifs <;> simp

theorem lowerFrom_not_blank {w : List Char} (h : ∀ c ∈ w, isBlank c = false)
    (before : List Char) : ∀ d ∈ lowerFrom before w, isBlank d = false := by
  induction w generalizing before with
  | nil => simp [lowerFrom]
  | cons c w ih =>
    rw [List.forall_mem_cons] at h
    exact List.forall_mem_append.mpr ⟨lowerBetween_not_blank h.1, ih h.2 _⟩

theorem Unbroken.lower {w : List Char} (h : Unbroken w) : Unbroken (lower w) := by
  obtain ⟨hne, hblank⟩ := h
  refine ⟨?_, lowerFrom_not_blank hblank []⟩
  obtain ⟨c, w, rfl⟩ := List.exists_cons_of_ne_nil hne
  simp [Text.lower, lowerFrom, lowerBetween_ne_nil]

/-- The words of a text go to lower case each on its own. -/
theorem words_lower (cs : List Char) : words (lower cs) = (words cs).map lower := by
  have hshort : ∀ w : List Char, (∀ c ∈ w, isBlank c = false) →
      words (lower w) = (words w).map lower := by
    intro w hw
    by_cases hne : w = []
    · subst hne
      rfl
    · rw [words_unbroken (Unbroken.lower ⟨hne, hw⟩), words_unbroken ⟨hne, hw⟩, List.map_singleton]
  induction cs using blank_induction with
  | unbroken w hw => exact hshort w hw
  | broken w b cs hw hb ih =>
    rw [lower_blank hb, words_blank _ hb, words_blank _ hb, List.map_append, hshort w hw, ih]

/-! ## Lower case once and for all -/

/-- A character that is its own lower case wherever it stands. -/
def Small (c : Char) : Prop := c ≠ 'Σ' ∧ c ≠ 'İ' ∧ lowerPartner c = c

instance (c : Char) : Decidable (Small c) :=
  inferInstanceAs (Decidable (c ≠ 'Σ' ∧ c ≠ 'İ' ∧ lowerPartner c = c))

theorem lowerFrom_small {cs : List Char} (h : ∀ c ∈ cs, Small c) (before : List Char) :
    lowerFrom before cs = cs := by
  induction cs generalizing before with
  | nil => rfl
  | cons c cs ih =>
    rw [List.forall_mem_cons] at h
    obtain ⟨⟨hsigma, hdotted, hpartner⟩, hrest⟩ := h
    rw [lowerFrom, lowerBetween, if_neg hsigma, if_neg hdotted, hpartner, ih hrest]
    rfl

/-- No partner in one run is a capital of the other: the two lie apart, or the other takes every
second code point and the partners are those between. -/
def CaseRun.clearOf (r q : CaseRun) : Bool :=
  Nat.blt (r.last + r.shift).toNat q.first || Nat.blt q.last (r.first + r.shift).toNat ||
    (r.step == 2 || r.first == r.last) && q.step == 2 &&
      ((r.first + r.shift).toNat - q.first) % 2 == 1

theorem capitalRuns_clear : (capitalRuns.all fun r => capitalRuns.all r.clearOf) = true := by
  decide +kernel

theorem CaseRun.not_holds_of_clear {r q : CaseRun} (h : r.clearOf q = true) {n : Nat}
    (hr : r.holds n = true) : q.holds (n + r.shift).toNat = false := by
  simp only [clearOf, Nat.blt_eq, Bool.or_eq_true, Bool.and_eq_true, beq_iff_eq] at h
  simp only [holds, Bool.and_eq_true, decide_eq_true_eq, beq_iff_eq] at hr
  rw [Bool.eq_false_iff]
  simp only [holds, ne_eq, Bool.and_eq_true, decide_eq_true_eq, beq_iff_eq]
  rintro ⟨⟨hlow, hhigh⟩, hstep⟩
  rcases h with (h | h) | ⟨⟨hshape, hq⟩, hodd⟩
  · omega
  · omega
  · rw [hq] at hstep
    rcases hshape with hr2 | hone
    · rw [hr2] at hr
      omega
    · omega

theorem small_of_not_holds {c : Char} (h : ∀ q ∈ capitalRuns, q.holds c.toNat = false)
    (hdotted : c ≠ 'İ') : Small c := by
  have hsigma : ∃ q ∈ capitalRuns, q.holds 'Σ'.toNat = true := by decide +kernel
  have hnone : capitalRuns.find? (·.holds c.toNat) = none := by
    rw [List.find?_eq_none]
    exact fun q hq => Bool.eq_false_iff.mp (h q hq)
  refine ⟨?_, hdotted, by rw [lowerPartner, hnone]⟩
  rintro rfl
  obtain ⟨q, hq, hholds⟩ := hsigma
  rw [h q hq] at hholds
  cases hholds

theorem lowerPartner_small {c : Char} (hdotted : c ≠ 'İ') : Small (lowerPartner c) := by
  have hzero : ∀ q ∈ capitalRuns, q.holds 0 = false := by decide +kernel
  have hneither : ∀ r ∈ capitalRuns, r.last + r.shift < 304 ∨ 304 < r.first + r.shift := by
    decide +kernel
  unfold lowerPartner
  split
  · rename_i r hr
    have hmem := List.mem_of_find?_eq_some hr
    have hholds := List.find?_some hr
    have hrow := List.all_eq_true.mp capitalRuns_clear r hmem
    have hclear : ∀ q ∈ capitalRuns, q.holds (c.toNat + r.shift).toNat = false := fun q hq =>
      CaseRun.not_holds_of_clear (List.all_eq_true.mp hrow q hq) hholds
    rcases toNat_ofNat (c.toNat + r.shift).toNat with hn | hn
    · refine small_of_not_holds (by rwa [hn]) fun hbad => ?_
      have hlies : (c.toNat + r.shift).toNat = 304 := by
        rw [← hn, hbad]
        rfl
      have := hneither r hmem
      simp only [CaseRun.holds, Bool.and_eq_true, decide_eq_true_eq] at hholds
      omega
    · refine small_of_not_holds (by rwa [hn]) fun hbad => ?_
      rw [hbad] at hn
      cases hn
  · rename_i hnone
    rw [List.find?_eq_none] at hnone
    exact small_of_not_holds (fun q hq => Bool.eq_false_iff.mpr (hnone q hq)) hdotted

theorem lowerFrom_makes_small (before cs : List Char) : ∀ d ∈ lowerFrom before cs, Small d := by
  have hsigma : Small 'ς' ∧ Small 'σ' := by decide +kernel
  have hpair : Small 'i' ∧ Small '\u0307' := by decide +kernel
  induction cs generalizing before with
  | nil => simp [lowerFrom]
  | cons c cs ih =>
    refine List.forall_mem_append.mpr ⟨?_, ih _⟩
    unfold lowerBetween
    split_ifs with h₁ h₂ h₃
    · simpa using hsigma.1
    · simpa using hsigma.2
    · simpa using hpair
    · simpa using lowerPartner_small h₃

end BackendFuzz.Text
