import BackendFuzz.Json.Printer
import BackendFuzz.Proofs.Json.Equality
import BackendFuzz.Text.Utf8

/-!
# JSON text is printable

The text of any value is one line of printable ASCII. So it always has a form in
bytes, whatever texts the value holds.
-/

namespace BackendFuzz

namespace Text

/-! ## Printable ASCII -/

def Plain (c : Char) : Prop := 0x20 ≤ c.toNat ∧ c.toNat < 0x7f

instance : DecidablePred Plain := fun _ => inferInstanceAs (Decidable (_ ∧ _))

def AllPlain (cs : List Char) : Prop := ∀ c ∈ cs, Plain c

instance : DecidablePred AllPlain := fun cs => List.decidableBAll Plain cs

theorem AllPlain.append {cs ds : List Char} (hc : AllPlain cs) (hd : AllPlain ds) :
    AllPlain (cs ++ ds) := by
  intro c h
  exact (List.mem_append.mp h).elim (hc c) (hd c)

theorem AllPlain.cons {c : Char} {cs : List Char} (hc : Plain c) (hcs : AllPlain cs) :
    AllPlain (c :: cs) := List.forall_mem_cons.mpr ⟨hc, hcs⟩

theorem AllPlain.sublist {cs ds : List Char} (hd : AllPlain ds) (h : ∀ c ∈ cs, c ∈ ds) :
    AllPlain cs := fun c hc => hd c (h c hc)

theorem AllPlain.low {cs : List Char} (h : AllPlain cs) : ∀ c ∈ cs, c.toNat < 0xD800 := by
  intro c hc
  obtain ⟨_, hlt⟩ := h c hc
  omega

/-! ## Texts below the surrogates -/

theorem point_of_low {c : Char} (h : c.toNat < 0xD800) : point c = c.toNat := by
  have hs : isStandIn c.toNat = false := by
    simp only [isStandIn, Bool.and_eq_false_iff, decide_eq_false_iff_not]
    omega
  simp [point, hs]

theorem points_of_low {cs : List Char} (h : ∀ c ∈ cs, c.toNat < 0xD800) :
    points cs = cs.map Char.toNat := by
  induction cs with
  | nil => rfl
  | cons a cs ih =>
    rw [List.forall_mem_cons] at h
    have ha := point_of_low h.1
    cases cs with
    | nil => simp [points, ha]
    | cons b cs =>
      have hhigh : isHighSurrogate (point a) = false := by
        rw [ha]
        simp only [isHighSurrogate, Bool.and_eq_false_iff, decide_eq_false_iff_not]
        omega
      have ht : together? a b = none := by simp [together?, hhigh]
      rw [points, ht, ih h.2]
      simp [ha]

theorem loneRun?_eq_none (allowed : Nat → Bool) {ns : List Nat}
    (h : ∀ n ∈ ns, isSurrogate n = false) (position : Nat) : loneRun? allowed position ns = none := by
  induction ns generalizing position with
  | nil => rfl
  | cons n ns ih =>
    rw [List.forall_mem_cons] at h
    rw [loneRun?, h.1]
    exact ih h.2 (position + 1)

theorem isSurrogate_of_low {n : Nat} (h : n < 0xD800) : isSurrogate n = false := by
  simp only [isSurrogate, Bool.and_eq_false_iff, decide_eq_false_iff_not]
  omega

theorem encode_of_low {s : String} (h : ∀ c ∈ s.toList, c.toNat < 0xD800) :
    encode s = .ok s.toUTF8 := by
  have hnone : loneRun? (fun _ => false) 0 (s.toList.map Char.toNat) = none := by
    refine loneRun?_eq_none _ (fun n hn => ?_) 0
    obtain ⟨c, hc, rfl⟩ := List.mem_map.mp hn
    exact isSurrogate_of_low (h c hc)
  simp only [encode, points_of_low h, hnone, List.map_map]
  have hself : s.toList.map (Char.ofNat ∘ Char.toNat) = s.toList := by
    simp [Function.comp_def, Char.ofNat_toNat]
  rw [hself, String.ofList_toList]

theorem decode_toUTF8 (s : String) :
    decode s.toUTF8 = .ok (String.ofList (hold s.toList)) := by
  have hback : String.fromUTF8? s.toUTF8 = some s := dif_pos s.isValidUTF8
  rw [decode, hback]

theorem hold_of_low {cs : List Char} (h : ∀ c ∈ cs, c.toNat < 0xD800) : hold cs = cs := by
  have hone : ∀ c ∈ cs, held c.toNat = [c] := by
    intro c hc
    have hs : isStandIn c.toNat = false := by
      have := h c hc
      simp only [isStandIn, Bool.and_eq_false_iff, decide_eq_false_iff_not]
      omega
    simp [held, isSurrogate_of_low (h c hc), hs, Char.ofNat_toNat]
  rw [hold, List.flatMap_congr hone, List.flatMap_singleton']

theorem decode_of_allPlain {s : String} (h : AllPlain s.toList) : decode s.toUTF8 = .ok s := by
  rw [decode_toUTF8, hold_of_low h.low, String.ofList_toList]

theorem unifyLines_of_no_return {cs : List Char} (h : '\r' ∉ cs) : unifyLines cs = cs := by
  induction cs with
  | nil => rfl
  | cons c cs ih =>
    have hc : c ≠ '\r' := (List.ne_of_not_mem_cons h).symm
    have hrest := ih (List.not_mem_of_not_mem_cons h)
    rw [unifyLines.eq_4 c cs (fun _ heq _ => hc heq) hc, hrest]

theorem unifyLines_of_allPlain {cs : List Char} (h : AllPlain cs) : unifyLines cs = cs :=
  unifyLines_of_no_return fun hc => absurd (h _ hc) (by decide)

/-- A text in which no surrogate stands on its own. -/
def Scalar (s : String) : Prop := ∀ n ∈ points s.toList, isSurrogate n = false

end Text

open Text

/-! ## Numbers -/

theorem plain_of_isDigit {c : Char} (h : c.isDigit = true) : Plain c := by
  have h' : 48 ≤ c.toNat ∧ c.toNat ≤ 57 := by
    simp only [Char.isDigit, Bool.and_eq_true, decide_eq_true_eq] at h
    exact ⟨h.1, h.2⟩
  exact ⟨by omega, by omega⟩

theorem allPlain_nat (n : Nat) : AllPlain (toString n).toList := by
  intro c hc
  rw [Nat.toString_eq_repr, Nat.toList_repr] at hc
  exact plain_of_isDigit (Nat.isDigit_of_mem_toDigits (by decide) (by decide) hc)

theorem allPlain_int (n : Int) : AllPlain (toString n).toList := by
  rw [Int.toString_eq_repr, Int.repr_eq_if]
  split
  · exact allPlain_nat _
  · rw [String.toList_append]
    exact AllPlain.append (by decide) (allPlain_nat _)

namespace Decimal

theorem allPlain_withPoint (digits places : Nat) : AllPlain (withPoint digits places).toList := by
  have hcs : AllPlain (List.replicate (places + 1 - (toString digits).toList.length) '0' ++
      (toString digits).toList) :=
    AllPlain.append (fun c hc => (List.mem_replicate.mp hc).2 ▸ by decide) (allPlain_nat digits)
  unfold withPoint
  dsimp only
  split
  · rw [String.toList_ofList]
    exact hcs.sublist fun c hc => List.mem_of_mem_take hc
  · rw [String.toList_ofList]
    exact (hcs.sublist fun c hc => List.mem_of_mem_take hc).append
      (.cons (by decide) (hcs.sublist fun c hc => List.mem_of_mem_drop hc))

theorem allPlain_exponentText (l : Layout) (e : Int) : AllPlain (exponentText l e).toList := by
  unfold exponentText
  simp only [String.toList_append, zerosText, String.toList_ofList]
  refine AllPlain.append (AllPlain.append ?_ ?_) (allPlain_nat _)
  · split <;> decide
  · exact fun c hc => (List.mem_replicate.mp hc).2 ▸ by decide

theorem allPlain_text (l : Layout) (d : Decimal) : AllPlain (d.text l).toList := by
  unfold text
  dsimp only
  split
  · split <;> exact allPlain_withPoint _ _
  · simp only [String.toList_append]
    refine AllPlain.append (AllPlain.append ?_ (by decide)) (allPlain_exponentText _ _)
    have hd := allPlain_nat d.digits
    split
    · decide
    · rename_i c hc
      rw [hc] at hd
      simpa using hd
    · rename_i c rest _ hc
      rw [hc] at hd
      rw [String.toList_ofList]
      exact .cons (hd c List.mem_cons_self) (.cons (by decide) fun d h =>
        hd d (List.mem_cons_of_mem _ h))

end Decimal

theorem Binary64.allPlain_text (x : Binary64) : AllPlain x.text.toList := by
  cases x with
  | finite negative m e =>
    rw [Binary64.text, String.toList_append]
    refine AllPlain.append ?_ (Decimal.allPlain_text _ _)
    cases negative <;> decide
  | infinite negative => cases negative <;> decide
  | nan => decide

/-! ## Values -/

namespace Json

theorem plain_hexDigit (n : Nat) : Plain (hexDigit n) := by
  have hall : AllPlain ('0' :: "0123456789abcdef".toList) := by decide
  apply hall
  rw [hexDigit, List.getD_eq_getElem?_getD]
  cases h : "0123456789abcdef".toList[n]? with
  | none => exact List.mem_cons_self
  | some c => exact List.mem_cons_of_mem _ (List.mem_of_getElem? h)

theorem allPlain_hexDigits (width n : Nat) : AllPlain (hexDigits width n) := by
  induction width generalizing n with
  | zero => exact fun c hc => by cases hc
  | succ width ih =>
    exact (ih _).append (.cons (plain_hexDigit _) fun c hc => by cases hc)

theorem allPlain_printedChar (c : Char) : AllPlain (printedChar c) := by
  have hunit : ∀ n, AllPlain (unitEscape n) := fun n =>
    .cons (by decide) (.cons (by decide) (allPlain_hexDigits 4 n))
  unfold printedChar
  split_ifs with hq hb hn hr ht hf hbs hp
  all_goals first | decide | skip
  · exact .cons hp fun c hc => by cases hc
  · unfold escapeUnits
    dsimp only
    split
    · exact hunit _
    · exact (hunit _).append (hunit _)

theorem allPlain_printedText (cs : List Char) : AllPlain (printedText cs) := by
  refine AllPlain.append (.cons (by decide) ?_) (by decide)
  intro c hc
  obtain ⟨d, -, hd⟩ := List.mem_flatMap.mp hc
  exact allPlain_printedChar d c hd

theorem allPlain_printedItems {items : List Json} (h : ∀ x ∈ items, AllPlain x.printed) :
    AllPlain (printedItems items) := by
  induction items with
  | nil => decide
  | cons x xs ih =>
    rw [List.forall_mem_cons] at h
    cases xs with
    | nil => exact h.1
    | cons y ys =>
      rw [printedItems]
      · exact (h.1.append (by decide)).append (ih h.2)
      · simp

theorem allPlain_printedFields {fields : Fields} (h : ∀ f ∈ fields, AllPlain f.2.printed) :
    AllPlain (printedFields fields) := by
  induction fields with
  | nil => decide
  | cons f fs ih =>
    obtain ⟨n, v⟩ := f
    rw [List.forall_mem_cons] at h
    have hhead : AllPlain (printedText n.toList ++ ": ".toList ++ v.printed) :=
      ((allPlain_printedText _).append (by decide)).append h.1
    cases fs with
    | nil => exact hhead
    | cons g gs =>
      rw [printedFields]
      · exact (hhead.append (by decide)).append (ih h.2)
      · simp

theorem allPlain_printed (j : Json) : AllPlain j.printed := by
  induction j using Json.induct with
  | null => decide
  | bool b => cases b <;> decide
  | int n => exact allPlain_int n
  | real x =>
    rw [printed]
    unfold printedReal
    split
    · decide
    · decide
    · decide
    · exact x.allPlain_text
  | text s => exact allPlain_printedText _
  | array items ih =>
    rw [printed]
    exact .cons (by decide) ((allPlain_printedItems ih).append (by decide))
  | object fields ih =>
    rw [printed]
    exact .cons (by decide) ((allPlain_printedFields ih).append (by decide))

end Json

end BackendFuzz
