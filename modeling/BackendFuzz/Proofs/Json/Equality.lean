import BackendFuzz.Json.Equality
import Mathlib.Algebra.Field.Rat
import Mathlib.Algebra.Order.Ring.Rat
import Mathlib.Data.List.Nodup
import Mathlib.Tactic.FieldSimp
import Mathlib.Tactic.Linarith

/-!
# Equality of JSON values is an equivalence

Numbers agree exactly if they are worth the same, so `same` behaves on them like
equality. On objects a field is looked up by its name, so the laws need objects
that name no field twice (`Json.Proper`).
-/

namespace BackendFuzz

/-! ## What a number is worth -/

inductive Worth where
  | number (q : ℚ)
  | infinite (negative : Bool)
  | nothing

namespace Binary64

def worth : Binary64 → Worth
  | finite negative m e =>
    match ratio? (finite negative m e) with
    | some (a, b) => .number (a / b)
    | none => .nothing
  | infinite negative => .infinite negative
  | nan => .nothing

theorem magnitude_pos (m : Nat) (e : Int) : 0 < (magnitude m e).2 := by
  unfold magnitude
  split
  · exact Nat.pow_pos (by decide)
  · exact Nat.one_pos

theorem ratio?_finite (s : Bool) (m : Nat) (e : Int) :
    ∃ (a : Int) (b : Nat), ratio? (finite s m e) = some (a, b) ∧ 0 < b :=
  ⟨_, _, rfl, magnitude_pos m e⟩

theorem same_finite (s t : Bool) (m n : Nat) (d e : Int) :
    (finite s m d).same (finite t n e) = true ↔ (finite s m d).worth = (finite t n e).worth := by
  obtain ⟨a, b, hx, hb⟩ := ratio?_finite s m d
  obtain ⟨a', b', hy, hb'⟩ := ratio?_finite t n e
  have hb0 : (b : ℚ) ≠ 0 := by exact_mod_cast hb.ne'
  have hb0' : (b' : ℚ) ≠ 0 := by exact_mod_cast hb'.ne'
  have hcross : (a / b : ℚ) = a' / b' ↔ a * b' = a' * b := by
    rw [div_eq_div_iff hb0 hb0']; exact_mod_cast Iff.rfl
  simp only [same, le, worth, hx, hy, Bool.and_eq_true, decide_eq_true_eq, Worth.number.injEq,
    hcross]
  constructor
  · rintro ⟨h, h'⟩; exact le_antisymm h h'
  · intro h; exact ⟨h.le, h.ge⟩

/-- Two numbers agree, or neither is one, exactly if they are worth the same. -/
theorem same_or_nan_iff (x y : Binary64) :
    (x.same y || (x.isNaN && y.isNaN)) = true ↔ x.worth = y.worth := by
  cases x with
  | finite s m d =>
    cases y with
    | finite t n e => simpa [isNaN] using same_finite s t m n d e
    | infinite t => cases t <;> simp [same, le, isNaN, worth, ratio?]
    | nan => simp [same, le, isNaN, worth, ratio?]
  | infinite s =>
    cases y with
    | finite t n e => cases s <;> simp [same, le, isNaN, worth, ratio?]
    | infinite t => cases s <;> cases t <;> simp [same, le, isNaN, worth]
    | nan => cases s <;> simp [same, le, isNaN, worth]
  | nan =>
    cases y with
    | finite t n e => simp [same, le, isNaN, worth, ratio?]
    | infinite t => cases t <;> simp [same, le, isNaN, worth]
    | nan => simp [same, le, isNaN, worth]

theorem isWhole_iff (x : Binary64) (n : Int) : x.isWhole n = true ↔ x.worth = .number n := by
  cases x with
  | finite s m e =>
    obtain ⟨a, b, hx, hb⟩ := ratio?_finite s m e
    have hb0 : (b : ℚ) ≠ 0 := by exact_mod_cast hb.ne'
    have hcross : (a / b : ℚ) = n ↔ a = n * b := by
      rw [div_eq_iff hb0]; exact_mod_cast Iff.rfl
    simp only [isWhole, worth, hx, beq_iff_eq, Worth.number.injEq, hcross]
  | infinite s => simp [isWhole, worth, ratio?]
  | nan => simp [isWhole, worth, ratio?]

end Binary64

def Amount.worth : Amount → Worth
  | .whole n => .number n
  | .binary x => x.worth

theorem Amount.same_iff (a b : Amount) : a.same b = true ↔ a.worth = b.worth := by
  cases a with
  | whole m =>
    cases b with
    | whole n => simp [Amount.same, Amount.worth]
    | binary y => rw [Amount.same, Binary64.isWhole_iff]; exact eq_comm
  | binary x =>
    cases b with
    | whole n => exact Binary64.isWhole_iff x n
    | binary y => exact Binary64.same_or_nan_iff x y

namespace Json

/-- Structural induction in which items and fields come by membership. -/
@[elab_as_elim]
theorem induct {P : Json → Prop} (null : P null) (bool : ∀ b, P (bool b)) (int : ∀ n, P (int n))
    (real : ∀ x, P (real x)) (text : ∀ s, P (text s))
    (array : ∀ xs, (∀ x ∈ xs, P x) → P (array xs))
    (object : ∀ fs : Fields, (∀ f ∈ fs, P f.2) → P (object fs)) (j : Json) : P j := by
  exact @Json.rec P (fun xs => ∀ x ∈ xs, P x) (fun fs => ∀ f ∈ fs, P f.2) (fun f => P f.2)
    null bool int real text array object (by simp)
    (fun x xs hx hxs => List.forall_mem_cons.mpr ⟨hx, hxs⟩) (by simp)
    (fun f fs hf hfs => List.forall_mem_cons.mpr ⟨hf, hfs⟩) (fun _ _ h => h) j

/-! ## Values that name no field twice -/

mutual

def Proper : Json → Prop
  | array items => ProperItems items
  | object fields => (fields.map (·.1)).Nodup ∧ ProperFields fields
  | _ => True

def ProperItems : List Json → Prop
  | [] => True
  | x :: xs => x.Proper ∧ ProperItems xs

def ProperFields : List (String × Json) → Prop
  | [] => True
  | (_, v) :: rest => v.Proper ∧ ProperFields rest

end

theorem properItems_iff (xs : List Json) : ProperItems xs ↔ ∀ x ∈ xs, x.Proper := by
  induction xs with
  | nil => simp [ProperItems]
  | cons x xs ih => simp [ProperItems, ih]

theorem properFields_iff (fs : Fields) : ProperFields fs ↔ ∀ f ∈ fs, f.2.Proper := by
  induction fs with
  | nil => simp [ProperFields]
  | cons f rest ih => obtain ⟨n, v⟩ := f; simp [ProperFields, ih]

/-! ## Looking up fields -/

theorem mem_of_lookup {fs : Fields} {n : String} {v : Json} (h : fs.lookup n = some v) :
    (n, v) ∈ fs := by
  obtain ⟨l₁, l₂, rfl, _⟩ := List.lookup_eq_some_iff.mp h
  simp

theorem lookup_of_mem {fs : Fields} (hn : (fs.map (·.1)).Nodup) {n : String} {v : Json}
    (h : (n, v) ∈ fs) : fs.lookup n = some v := by
  induction fs with
  | nil => cases h
  | cons f rest ih =>
    obtain ⟨m, w⟩ := f
    rw [List.map_cons, List.nodup_cons] at hn
    rcases List.mem_cons.mp h with he | hr
    · cases he; simp
    · have hne : n ≠ m := fun e => hn.1 (e ▸ List.mem_map_of_mem (f := (·.1)) hr)
      rw [List.lookup_cons, beq_eq_false_iff_ne.mpr hne]
      exact ih hn.2 hr

theorem sameFields_iff (fs gs : Fields) : sameFields fs gs = true ↔
    ∀ f ∈ fs, ∃ w, gs.lookup f.1 = some w ∧ same f.2 w = true := by
  induction fs with
  | nil => simp [sameFields]
  | cons f rest ih =>
    obtain ⟨n, v⟩ := f
    rw [sameFields, Bool.and_eq_true, ih, List.forall_mem_cons]
    cases gs.lookup n <;> simp

/-- Fields that all have partners in as many others leave none of these without one. -/
theorem names_subset {fs gs : Fields} (hf : (fs.map (·.1)).Nodup) (hl : fs.length = gs.length)
    (h : ∀ f ∈ fs, ∃ w, gs.lookup f.1 = some w) : ∀ g ∈ gs, ∃ v, (g.1, v) ∈ fs := by
  have hsub : fs.map (·.1) ⊆ gs.map (·.1) := by
    intro n hn
    obtain ⟨f, hf', rfl⟩ := List.mem_map.mp hn
    obtain ⟨w, hw⟩ := h f hf'
    exact List.mem_map_of_mem (f := (·.1)) (mem_of_lookup hw)
  have hperm := (List.subperm_of_subset hf hsub).perm_of_length_le (by simp [hl])
  intro g hg
  obtain ⟨f, hf', he⟩ := List.mem_map.mp (hperm.mem_iff.mpr (List.mem_map_of_mem (f := (·.1)) hg))
  exact ⟨f.2, he ▸ hf'⟩

/-! ## The three laws -/

theorem sameItems_iff (xs ys : List Json) :
    sameItems xs ys = true ↔ List.Forall₂ (fun x y => x.same y = true) xs ys := by
  induction xs generalizing ys with
  | nil => cases ys <;> simp [sameItems]
  | cons x xs ih => cases ys <;> simp [sameItems, ih]

theorem same_refl (a : Json) (ha : a.Proper) : a.same a = true := by
  induction a using induct with
  | null => rfl
  | bool b => simp [same, amount?, Amount.same_iff]
  | int n => simp [same, amount?, Amount.same_iff]
  | real x => simp [same, amount?, Amount.same_iff]
  | text s => simp [same]
  | array xs ih =>
    rw [Proper, properItems_iff] at ha
    rw [same, sameItems_iff, List.forall₂_same]
    exact fun x hx => ih x hx (ha x hx)
  | object fs ih =>
    rw [Proper, properFields_iff] at ha
    rw [same, Bool.and_eq_true, sameFields_iff]
    exact ⟨by simp, fun f hf => ⟨f.2, lookup_of_mem ha.1 hf, ih f hf (ha.2 f hf)⟩⟩

theorem same_symm {a b : Json} (ha : a.Proper) (hb : b.Proper) (h : a.same b = true) :
    b.same a = true := by
  induction a using induct generalizing b with
  | null => cases b <;> simp_all [same, amount?]
  | bool _ | int _ | real _ => cases b <;> simp_all [same, amount?, Amount.same_iff]
  | text s => cases b <;> simp_all [same, amount?]
  | array xs ih =>
    cases b with
    | array ys =>
      rw [Proper, properItems_iff] at ha hb
      rw [same, sameItems_iff] at h ⊢
      rw [List.forall₂_iff_get] at h ⊢
      refine ⟨h.1.symm, fun i hy hx => ?_⟩
      exact ih _ (List.get_mem xs ⟨i, hx⟩) (ha _ (List.get_mem xs ⟨i, hx⟩))
        (hb _ (List.get_mem ys ⟨i, hy⟩)) (h.2 i hx hy)
    | _ => simp [same, amount?] at h
  | object fs ih =>
    cases b with
    | object gs =>
      rw [Proper, properFields_iff] at ha hb
      rw [same, Bool.and_eq_true, beq_iff_eq, sameFields_iff] at h ⊢
      have hmem := names_subset ha.1 h.1 fun f hf => (h.2 f hf).imp fun _ hw => hw.1
      refine ⟨h.1.symm, fun g hg => ?_⟩
      obtain ⟨v, hv⟩ := hmem g hg
      obtain ⟨w, hw, hs⟩ := h.2 _ hv
      have hwg : w = g.2 := Option.some.inj (hw.symm.trans (lookup_of_mem hb.1 hg))
      subst hwg
      exact ⟨v, lookup_of_mem ha.1 hv, ih _ hv (ha.2 _ hv) (hb.2 g hg) hs⟩
    | _ => simp [same, amount?] at h

theorem same_trans {a b c : Json} (hab : a.same b = true) (hbc : b.same c = true) :
    a.same c = true := by
  induction a using induct generalizing b c with
  | null =>
    cases b with
    | null => exact hbc
    | _ => simp [same, amount?] at hab
  | bool _ | int _ | real _ => cases b <;> cases c <;> simp_all [same, amount?, Amount.same_iff]
  | text s =>
    cases b with
    | text t => simp only [same, beq_iff_eq] at hab; exact hab ▸ hbc
    | _ => simp [same, amount?] at hab
  | array xs ih =>
    cases b with
    | array ys =>
      cases c with
      | array zs =>
        rw [same, sameItems_iff, List.forall₂_iff_get] at hab hbc ⊢
        refine ⟨hab.1.trans hbc.1, fun i hx hz => ?_⟩
        have hy : i < ys.length := hab.1 ▸ hx
        exact ih _ (List.get_mem xs ⟨i, hx⟩) (hab.2 i hx hy) (hbc.2 i hy hz)
      | _ => simp [same, amount?] at hbc
    | _ => simp [same, amount?] at hab
  | object fs ih =>
    cases b with
    | object gs =>
      cases c with
      | object hs =>
        rw [same, Bool.and_eq_true, beq_iff_eq, sameFields_iff] at hab hbc ⊢
        refine ⟨hab.1.trans hbc.1, fun f hf => ?_⟩
        obtain ⟨w, hw, hfw⟩ := hab.2 f hf
        obtain ⟨x, hx, hwx⟩ := hbc.2 _ (mem_of_lookup hw)
        exact ⟨x, hx, ih f hf hfw hwx⟩
      | _ => simp [same, amount?] at hbc
    | _ => simp [same, amount?] at hab

end Json

end BackendFuzz
