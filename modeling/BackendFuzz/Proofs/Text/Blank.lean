import BackendFuzz.Text.Blank
import BackendFuzz.Text.Word
import Mathlib.Data.List.Basic
import Mathlib.Data.List.TakeWhile

/-!
# White space around and between words

What is left of a text without the blanks around it is told by where it starts and
ends. A blank parts the words before it from those after it, so the words of a text are
those that it was laid out from, and no word character is a blank.
-/

namespace BackendFuzz.Text

theorem inRanges_of_disjoint {s t : List (Nat × Nat)}
    (h : ∀ r ∈ s, ∀ q ∈ t, r.2 < q.1 ∨ q.2 < r.1) {c : Char} (hc : inRanges s c = true) :
    inRanges t c = false := by
  obtain ⟨r, hr, hlow, hhigh⟩ := inRanges_iff.mp hc
  rw [Bool.eq_false_iff, ne_eq, inRanges_iff]
  rintro ⟨q, hq, hlow', hhigh'⟩
  have := h r hr q hq
  omega

theorem not_isBlank_of_isWord {c : Char} (h : isWord c = true) : isBlank c = false :=
  inRanges_of_disjoint (by decide +kernel) h

/-! ## Trimming -/

/-- What is left of a text without the characters of a class at its ends. -/
structure Bare (p : Char → Bool) (cs core : List Char) : Prop where
  around : ∃ before after, cs = before ++ core ++ after ∧ (∀ c ∈ before, p c = true) ∧
    ∀ c ∈ after, p c = true
  first : ∀ c ∈ core.head?, p c = false
  last : ∀ c ∈ core.getLast?, p c = false

section
variable {p q : Char → Bool} {cs core : List Char}

theorem dropWhile_eq_self_of_head (h : ∀ c ∈ cs.head?, p c = false) : cs.dropWhile p = cs := by
  cases cs with
  | nil => rfl
  | cons c cs => simp [h c rfl]

theorem Bare.eq (h : Bare p cs core) :
    core = ((cs.dropWhile p).reverse.dropWhile p).reverse := by
  obtain ⟨before, after, rfl, hbefore, hafter⟩ := h.around
  rw [List.append_assoc, List.dropWhile_append_of_pos hbefore]
  by_cases hc : core = []
  · have hnone : after.dropWhile p = [] := List.dropWhile_eq_nil_iff.mpr hafter
    simp [hc, hnone]
  · have hfirst : ∀ c ∈ (core ++ after).head?, p c = false := by
      rw [List.head?_append_of_ne_nil _ hc]
      exact h.first
    have hlast : ∀ c ∈ core.reverse.head?, p c = false := by
      rw [List.head?_reverse]
      exact h.last
    rw [dropWhile_eq_self_of_head hfirst, List.reverse_append,
      List.dropWhile_append_of_pos (by simpa using hafter), dropWhile_eq_self_of_head hlast,
      List.reverse_reverse]

theorem Bare.congr (h : Bare p cs core) (hpq : ∀ c ∈ cs, q c = p c) : Bare q cs core := by
  obtain ⟨before, after, rfl, hbefore, hafter⟩ := h.around
  have hmem : ∀ c ∈ core, q c = p c := fun c hc => hpq c (by simp [hc])
  refine ⟨⟨before, after, rfl, fun c hc => ?_, fun c hc => ?_⟩, fun c hc => ?_, fun c hc => ?_⟩
  · rw [hpq c (by simp [hc]), hbefore c hc]
  · rw [hpq c (by simp [hc]), hafter c hc]
  · rw [hmem c (List.mem_of_mem_head? hc), h.first c hc]
  · rw [hmem c (List.mem_of_getLast? hc), h.last c hc]

end

theorem bare_trim (cs : List Char) : Bare isBlank cs (trim cs) := by
  have hleft : cs.takeWhile isBlank ++ trimLeft cs = cs := List.takeWhile_append_dropWhile
  have hright : trim cs ++ ((trimLeft cs).reverse.takeWhile isBlank).reverse = trimLeft cs := by
    rw [trim, trimRight, ← List.reverse_append, List.takeWhile_append_dropWhile,
      List.reverse_reverse]
  have hblank : ∀ (ds : List Char), ∀ c ∈ ds.takeWhile isBlank, isBlank c = true :=
    fun ds c hc => List.mem_takeWhile_imp hc
  have hnot : ∀ (ds : List Char), ∀ c ∈ (ds.dropWhile isBlank).head?, isBlank c = false := by
    intro ds c hc
    have h := List.head?_dropWhile_not isBlank ds
    rw [Option.mem_def.mp hc] at h
    exact h
  refine ⟨⟨cs.takeWhile isBlank, ((trimLeft cs).reverse.takeWhile isBlank).reverse, ?_,
    hblank cs, fun c hc => hblank (trimLeft cs).reverse c (List.mem_reverse.mp hc)⟩,
    fun c hc => ?_, fun c hc => ?_⟩
  · rw [List.append_assoc, hright, hleft]
  · -- The first character is that of the text trimmed on its left, if there is one.
    refine hnot cs c ?_
    rw [← trimLeft, ← hright, List.head?_append, Option.mem_def.mp hc]
    rfl
  · rw [trim, trimRight, List.getLast?_reverse] at hc
    exact hnot _ c hc

theorem bare_iff_trim {cs core : List Char} : Bare isBlank cs core ↔ core = trim cs :=
  ⟨Bare.eq, fun h => h ▸ bare_trim cs⟩

theorem trim_eq_self {cs : List Char} (h : ∀ c ∈ cs, isBlank c = false) : trim cs = cs :=
  (bare_iff_trim.mp ⟨⟨[], [], by simp, by simp, by simp⟩,
    fun c hc => h c (List.mem_of_mem_head? hc), fun c hc => h c (List.mem_of_getLast? hc)⟩).symm

/-! ## The words of a text -/

def Unbroken (w : List Char) : Prop := w ≠ [] ∧ ∀ c ∈ w, isBlank c = false

theorem wordsFrom_append (word : List Char) {w : List Char} (hw : ∀ c ∈ w, isBlank c = false)
    (cs : List Char) : wordsFrom word (w ++ cs) = wordsFrom (w.reverse ++ word) cs := by
  induction w generalizing word with
  | nil => rfl
  | cons c w ih =>
    rw [List.forall_mem_cons] at hw
    simp [wordsFrom, hw.1, ih _ hw.2]

theorem wordsFrom_blank (word xs : List Char) {b : Char} (hb : isBlank b = true)
    (ys : List Char) : wordsFrom word (xs ++ b :: ys) = wordsFrom word xs ++ words ys := by
  induction xs generalizing word with
  | nil =>
    rw [List.nil_append, wordsFrom, wordsFrom, if_pos hb]
    split <;> rfl
  | cons c xs ih =>
    rw [List.cons_append, wordsFrom, wordsFrom]
    split_ifs <;> simp [ih]

/-- A blank parts the words before it from those after it. -/
theorem words_blank (xs : List Char) {b : Char} (hb : isBlank b = true) (ys : List Char) :
    words (xs ++ b :: ys) = words xs ++ words ys :=
  wordsFrom_blank [] xs hb ys

theorem words_unbroken {w : List Char} (hw : Unbroken w) : words w = [w] := by
  have hall := wordsFrom_append [] hw.2 []
  simp only [List.append_nil] at hall
  simp [words, hall, wordsFrom, hw.1]

theorem words_blanks_append {gap : List Char} (h : ∀ c ∈ gap, isBlank c = true)
    (cs : List Char) : words (gap ++ cs) = words cs := by
  induction gap with
  | nil => rfl
  | cons b gap ih =>
    rw [List.forall_mem_cons] at h
    have hfirst := words_blank [] h.1 (gap ++ cs)
    rw [ih h.2] at hfirst
    exact hfirst

theorem words_append_blanks (cs : List Char) {gap : List Char} (h : ∀ c ∈ gap, isBlank c = true) :
    words (cs ++ gap) = words cs := by
  cases gap with
  | nil => rw [List.append_nil]
  | cons b gap =>
    rw [List.forall_mem_cons] at h
    have hnone := words_blanks_append h.2 []
    rw [List.append_nil] at hnone
    rw [words_blank cs h.1, hnone]
    exact List.append_nil _

theorem words_trim (cs : List Char) : words (trim cs) = words cs := by
  obtain ⟨before, after, hcs, hbefore, hafter⟩ := (bare_trim cs).around
  have hwords := words_append_blanks (before ++ trim cs) hafter
  rw [← hcs, words_blanks_append hbefore] at hwords
  exact hwords.symm

/-- A text without a blank, or a word, perhaps an empty one, a blank and another text. -/
theorem blank_induction {motive : List Char → Prop}
    (unbroken : ∀ w, (∀ c ∈ w, isBlank c = false) → motive w)
    (broken : ∀ w b cs, (∀ c ∈ w, isBlank c = false) → isBlank b = true → motive cs →
      motive (w ++ b :: cs)) (cs : List Char) : motive cs := by
  -- The induction reads the text and keeps the word before the place it is at.
  suffices h : ∀ w, (∀ c ∈ w, isBlank c = false) → motive (w ++ cs) from h [] (by simp)
  induction cs with
  | nil => exact fun w hw => (List.append_nil w).symm ▸ unbroken w hw
  | cons c cs ih =>
    intro w hw
    cases hc : isBlank c with
    | true => exact broken w c cs hw hc (ih [] (by simp))
    | false =>
      have hlonger : ∀ d ∈ w ++ [c], isBlank d = false :=
        List.forall_mem_append.mpr ⟨hw, by simpa using hc⟩
      rw [List.append_cons]
      exact ih _ hlonger

theorem unbroken_of_mem_words {cs w : List Char} (h : w ∈ words cs) : Unbroken w := by
  have hshort : ∀ v : List Char, (∀ c ∈ v, isBlank c = false) → w ∈ words v → Unbroken w := by
    intro v hv hmem
    by_cases hne : v = []
    · simp [hne, words, wordsFrom] at hmem
    · rw [words_unbroken ⟨hne, hv⟩, List.mem_singleton] at hmem
      exact hmem ▸ ⟨hne, hv⟩
  induction cs using blank_induction with
  | unbroken v hv => exact hshort v hv h
  | broken v b cs hv hb ih =>
    rw [words_blank v hb, List.mem_append] at h
    exact h.elim (hshort v hv) ih

/-- A text of these words in this order, with white space between them and perhaps around them. -/
inductive Laid : List (List Char) → List Char → Prop
  | gap {gap : List Char} (hgap : ∀ c ∈ gap, isBlank c = true) : Laid [] gap
  | word {gap w rest : List Char} {ws : List (List Char)} (hgap : ∀ c ∈ gap, isBlank c = true)
      (hw : Unbroken w) (hends : ∀ c ∈ rest.head?, isBlank c = true) (hrest : Laid ws rest) :
      Laid (w :: ws) (gap ++ (w ++ rest))

theorem Laid.words_eq {ws : List (List Char)} {cs : List Char} (h : Laid ws cs) :
    words cs = ws := by
  induction h with
  | gap hgap =>
    have hnone := words_append_blanks [] hgap
    exact hnone
  | @word gap w rest ws hgap hw hends hrest ih =>
    rw [words_blanks_append hgap, ← ih]
    cases rest with
    | nil => rw [List.append_nil, words_unbroken hw]; rfl
    | cons b rest =>
      have hb := hends b rfl
      have hskip := words_blank [] hb rest
      rw [List.nil_append] at hskip
      rw [words_blank w hb, words_unbroken hw, hskip]
      rfl

theorem Laid.behind {ws : List (List Char)} {cs gap : List Char} (h : Laid ws cs)
    (hgap : ∀ c ∈ gap, isBlank c = true) : Laid ws (gap ++ cs) := by
  cases h with
  | gap hmore => exact .gap (List.forall_mem_append.mpr ⟨hgap, hmore⟩)
  | word hmore hw hends hrest =>
    rw [← List.append_assoc]
    exact .word (List.forall_mem_append.mpr ⟨hgap, hmore⟩) hw hends hrest

theorem Laid.after {ws : List (List Char)} {w cs : List Char} (h : Laid ws cs)
    (hw : Unbroken w) (hends : ∀ c ∈ cs.head?, isBlank c = true) : Laid (w :: ws) (w ++ cs) :=
  @Laid.word [] w cs ws (by simp) hw hends h

theorem laid_words (cs : List Char) : Laid (words cs) cs := by
  have hnil : Laid [] [] := .gap (by simp)
  induction cs using blank_induction with
  | unbroken w hw =>
    by_cases hne : w = []
    · exact hne ▸ hnil
    · have hlaid := hnil.after ⟨hne, hw⟩ (by simp)
      rwa [List.append_nil, ← words_unbroken ⟨hne, hw⟩] at hlaid
  | broken w b cs hw hb ih =>
    have hblank : ∀ c ∈ [b], isBlank c = true := by simpa using hb
    have hrest : Laid (words cs) (b :: cs) := ih.behind hblank
    rw [words_blank w hb]
    by_cases hne : w = []
    · exact hne ▸ hrest
    · rw [words_unbroken ⟨hne, hw⟩]
      exact hrest.after ⟨hne, hw⟩ (by simpa using hb)

/-! ## Words behind spaces -/

def spaced (ws : List (Nat × List Char)) : List Char :=
  ws.flatMap fun w => List.replicate w.1 ' ' ++ w.2

theorem spaced_cons (n : Nat) (w : List Char) (ws : List (Nat × List Char)) :
    spaced ((n, w) :: ws) = List.replicate n ' ' ++ (w ++ spaced ws) := by
  simp [spaced]

def Separated (ws : List (Nat × List Char)) : Prop := ∀ w ∈ ws, 0 < w.1 ∧ Unbroken w.2

theorem blank_of_mem_spaces {n : Nat} : ∀ c ∈ List.replicate n ' ', isBlank c = true := by
  intro c hc
  rw [List.eq_of_mem_replicate hc]
  decide

theorem words_spaced {w : List Char} (hw : Unbroken w) {ws : List (Nat × List Char)}
    (h : Separated ws) : words (w ++ spaced ws) = w :: ws.map Prod.snd := by
  induction ws generalizing w with
  | nil => simp [spaced, words_unbroken hw]
  | cons v ws ih =>
    obtain ⟨n, v⟩ := v
    rw [Separated, List.forall_mem_cons] at h
    obtain ⟨n, rfl⟩ := Nat.exists_eq_add_one.mpr h.1.1
    rw [spaced_cons, List.replicate_succ, List.cons_append, words_blank w (by decide),
      words_unbroken hw, words_blanks_append blank_of_mem_spaces, ih h.1.2 h.2]
    rfl

end BackendFuzz.Text
