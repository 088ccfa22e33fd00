import BackendFuzz.Proofs.Number.Overflow
import Mathlib.Algebra.Order.Field.Power
import Mathlib.Tactic.FieldSimp
import Mathlib.Tactic.Linarith
import Mathlib.Tactic.NormNum
import Mathlib.Tactic.Positivity

/-!
# Rounding to the nearest

Around each positive value of the format lie the numbers that are rounded to it:
half a unit on each side, a quarter below a power of two, the ends included if
the mantissa is even. Whatever decimal or quotient lies there is read as the
value.
-/

namespace BackendFuzz.Binary64

attribute [local instance(high)] instPowNat

/-- A positive finite value, with the least exponent under which its mantissa is whole. -/
structure Proper (m : Nat) (e : Int) : Prop where
  pos : 0 < m
  bits : m < 2 ^ (53 : Nat)
  least : -1074 ≤ e
  most : e ≤ 971
  full : e = -1074 ∨ 2 ^ (52 : Nat) ≤ m

def Canonical : Binary64 → Prop
  | finite _ m e => m = 0 ∧ e = 0 ∨ Proper m e
  | _ => True

/-- How far below the value its numbers begin, in units. -/
def reach (m : Nat) (e : Int) : ℚ := if m = 2 ^ (52 : Nat) ∧ -1074 < e then 1 / 4 else 1 / 2

structure Rounds (m : Nat) (e : Int) (x : ℚ) : Prop where
  low : (m - reach m e) * 2 ^ e ≤ x
  high : x ≤ (m + 1 / 2) * 2 ^ e
  odd : m % 2 = 1 → (m - reach m e) * 2 ^ e < x ∧ x < (m + 1 / 2) * 2 ^ e

theorem reach_cases (m : Nat) (e : Int) :
    reach m e = 1 / 4 ∧ m = 2 ^ (52 : Nat) ∧ -1074 < e ∨ reach m e = 1 / 2 := by
  unfold reach
  split
  · rename_i h
    exact Or.inl ⟨rfl, h⟩
  · exact Or.inr rfl

theorem reach_le (m : Nat) (e : Int) : reach m e ≤ 1 / 2 := by
  rcases reach_cases m e with ⟨h, -⟩ | h
  · rw [h]
    norm_num
  · rw [h]

theorem rounds_self (m : Nat) (e : Int) : Rounds m e (m * 2 ^ e) := by
  have hunit : (0 : ℚ) < 2 ^ e := by positivity
  have hreach : 0 < reach m e * 2 ^ e := by
    rcases reach_cases m e with ⟨h, -⟩ | h
    all_goals rw [h]; positivity
  have hlow : (m - reach m e) * 2 ^ e < (m * 2 ^ e : ℚ) := by linarith
  have hhigh : (m * 2 ^ e : ℚ) < (m + 1 / 2) * 2 ^ e := by linarith
  exact ⟨hlow.le, hhigh.le, fun _ => ⟨hlow, hhigh⟩⟩

theorem Rounds.pos {m : Nat} {e : Int} {x : ℚ} (h : Rounds m e x) (hm : 0 < m) : 0 < x := by
  have hone : (1 : ℚ) ≤ m := by exact_mod_cast hm
  have hreach := reach_le m e
  have hunit : (0 : ℚ) < 2 ^ e := by positivity
  have hlow : (0 : ℚ) < (m - reach m e) * 2 ^ e := mul_pos (by linarith) hunit
  exact lt_of_lt_of_le hlow h.low

theorem Rounds.range {m : Nat} {e : Int} {x : ℚ} (h : Rounds m e x) (hp : Proper m e) :
    (2 : ℚ) ^ (-1075 : Int) ≤ x ∧ x < 2 ^ (1024 : Int) := by
  have hpos : (1 : ℚ) ≤ m := by exact_mod_cast hp.pos
  have hbits : (m : ℚ) + 1 ≤ 2 ^ (53 : Int) := by exact_mod_cast hp.bits
  have hreach := reach_le m e
  constructor
  · calc (2 : ℚ) ^ (-1075 : Int)
      _ = 1 / 2 * 2 ^ (-1074 : Int) := by
        rw [one_div, ← zpow_neg_one, ← zpow_add₀ two_ne_zero]
        rfl
      _ ≤ (m - reach m e) * 2 ^ e :=
        mul_le_mul (by linarith) (zpow_le_zpow_right₀ one_le_two hp.least) (by positivity)
          (by linarith)
      _ ≤ x := h.low
  · calc x
      _ ≤ (m + 1 / 2) * 2 ^ e := h.high
      _ < 2 ^ (53 : Int) * 2 ^ e := mul_lt_mul_of_pos_right (by linarith) (by positivity)
      _ ≤ 2 ^ (53 : Int) * 2 ^ (971 : Int) :=
        mul_le_mul_of_nonneg_left (zpow_le_zpow_right₀ one_le_two hp.most) (by positivity)
      _ = 2 ^ (1024 : Int) := by
        rw [← zpow_add₀ two_ne_zero]
        rfl

/-! ## Quotients -/

theorem div_lt_iff_ratio {d : Nat} (hd : 0 < d) (n k : Nat) : n / d < k ↔ (n : ℚ) / d < k := by
  have hpos : (0 : ℚ) < d := by exact_mod_cast hd
  rw [Nat.div_lt_iff_lt_mul hd, div_lt_iff₀ hpos]
  exact_mod_cast Iff.rfl

/-- The quotient is rounded to the whole number at most half a unit away, a tie to the even one. -/
theorem divNearest_of_near {n d m : Nat} (hd : 0 < d) (hlow : 2 * (m * d) ≤ 2 * n + d)
    (hhigh : 2 * n ≤ 2 * (m * d) + d)
    (hodd : m % 2 = 1 → 2 * (m * d) < 2 * n + d ∧ 2 * n < 2 * (m * d) + d) :
    divNearest n d = m := by
  have hdiv := Nat.div_add_mod n d
  have hmod := Nat.mod_lt n hd
  have hnear : m = n / d ∨ m = n / d + 1 := by
    rcases Nat.lt_trichotomy m (n / d) with hm | hm | hm
    · have := Nat.mul_le_mul_right d (show m + 1 ≤ n / d from hm)
      rw [Nat.add_mul, Nat.mul_comm (n / d)] at this
      omega
    · exact Or.inl hm
    · rcases Nat.eq_or_lt_of_le (show n / d + 1 ≤ m from hm) with hm | hm
      · exact Or.inr hm.symm
      · have := Nat.mul_le_mul_right d (show n / d + 2 ≤ m from hm)
        rw [Nat.add_mul, Nat.mul_comm (n / d)] at this
        omega
  unfold divNearest
  dsimp only
  split
  · rename_i h
    simp only [Bool.or_eq_true, decide_eq_true_eq, Bool.and_eq_true, beq_iff_eq] at h
    rcases hnear with rfl | rfl
    · rfl
    · rw [Nat.add_mul, Nat.mul_comm (n / d)] at *
      omega
  · rename_i h
    simp only [Bool.or_eq_true, decide_eq_true_eq, Bool.and_eq_true, beq_iff_eq, not_or] at h
    rcases hnear with rfl | rfl
    · rw [Nat.mul_comm (n / d)] at *
      omega
    · rfl

theorem divNearest_eq {n d m : Nat} (hd : 0 < d) (hlow : (m : ℚ) - 1 / 2 ≤ n / d)
    (hhigh : (n : ℚ) / d ≤ m + 1 / 2)
    (hodd : m % 2 = 1 → (m : ℚ) - 1 / 2 < n / d ∧ (n : ℚ) / d < m + 1 / 2) :
    divNearest n d = m := by
  have hpos : (0 : ℚ) < d := by exact_mod_cast hd
  rw [le_div_iff₀ hpos] at hlow
  rw [div_le_iff₀ hpos] at hhigh
  rw [lt_div_iff₀ hpos, div_lt_iff₀ hpos] at hodd
  have hlow : (2 * (m * d) : ℚ) ≤ 2 * n + d := by linarith
  have hhigh : (2 * n : ℚ) ≤ 2 * (m * d) + d := by linarith
  refine divNearest_of_near hd (by exact_mod_cast hlow) (by exact_mod_cast hhigh) fun h => ?_
  obtain ⟨hbelow, habove⟩ := hodd h
  have hbelow : (2 * (m * d) : ℚ) < 2 * n + d := by linarith
  have habove : (2 * n : ℚ) < 2 * (m * d) + d := by linarith
  exact ⟨by exact_mod_cast hbelow, by exact_mod_cast habove⟩

section
variable {num den : Nat}

theorem scaleDown_den_pos (hd : 0 < den) (e : Int) : 0 < (scaleDown num den e).2 := by
  unfold scaleDown
  split
  · exact hd
  · exact Nat.mul_pos hd (Nat.two_pow_pos _)

theorem scaleDown_ratio (e : Int) :
    ((scaleDown num den e).1 : ℚ) / (scaleDown num den e).2 = num / den / 2 ^ e := by
  cases e with
  | ofNat p =>
    rw [Int.ofNat_eq_natCast, scaleDown_natCast, zpow_natCast]
    push_cast
    rw [div_div]
  | negSucc k =>
    rw [scaleDown_negSucc, zpow_negSucc]
    push_cast
    rw [div_inv_eq_mul, mul_div_right_comm]

theorem ratio_log2 (hn : num ≠ 0) (hd : den ≠ 0) :
    (2 : ℚ) ^ ((num.log2 : Int) - den.log2 - 1) < num / den ∧
      (num : ℚ) / den < 2 ^ ((num.log2 : Int) - den.log2 + 1) := by
  have hpos : (0 : ℚ) < den := by exact_mod_cast Nat.pos_of_ne_zero hd
  have hnlow : (2 : ℚ) ^ (num.log2 : Int) ≤ num := by exact_mod_cast Nat.log2_self_le hn
  have hnhigh : (num : ℚ) < 2 ^ ((num.log2 : Int) + 1) := by exact_mod_cast Nat.lt_log2_self
  have hdlow : (2 : ℚ) ^ (den.log2 : Int) ≤ den := by exact_mod_cast Nat.log2_self_le hd
  have hdhigh : (den : ℚ) < 2 ^ ((den.log2 : Int) + 1) := by exact_mod_cast Nat.lt_log2_self
  rw [lt_div_iff₀ hpos, div_lt_iff₀ hpos]
  constructor
  · calc (2 : ℚ) ^ ((num.log2 : Int) - den.log2 - 1) * den
      _ < 2 ^ ((num.log2 : Int) - den.log2 - 1) * 2 ^ ((den.log2 : Int) + 1) := by gcongr
      _ = 2 ^ (num.log2 : Int) := by
        rw [← zpow_add₀ two_ne_zero]
        congr 1
        omega
      _ ≤ num := hnlow
  · calc (num : ℚ)
      _ < 2 ^ ((num.log2 : Int) + 1) := hnhigh
      _ = 2 ^ ((num.log2 : Int) - den.log2 + 1) * 2 ^ (den.log2 : Int) := by
        rw [← zpow_add₀ two_ne_zero]
        congr 1
        omega
      _ ≤ 2 ^ ((num.log2 : Int) - den.log2 + 1) * den := by gcongr

/-- The exponent leaves at most 53 bits, and no fewer unless it is the least one. -/
theorem exponentFor_bounds (hn : num ≠ 0) (hd : den ≠ 0) :
    -1074 ≤ exponentFor num den ∧ (num : ℚ) / den < 2 ^ (53 : Int) * 2 ^ exponentFor num den ∧
      (exponentFor num den = -1074 ∨
        (2 : ℚ) ^ (52 : Int) * 2 ^ exponentFor num den ≤ num / den) := by
  obtain ⟨hlow, hhigh⟩ := ratio_log2 hn hd
  have hpow : ∀ {m n : Int}, m ≤ n → (2 : ℚ) ^ m ≤ 2 ^ n := fun h =>
    zpow_le_zpow_right₀ one_le_two h
  simp only [← zpow_add₀ (two_ne_zero' ℚ)]
  unfold exponentFor
  dsimp only
  generalize he : max (-1074) ((num.log2 : Int) - den.log2 - 53) = e
  have hscale := @scaleDown_ratio num den e
  have hsmall := div_lt_iff_ratio (@scaleDown_den_pos num den (Nat.pos_of_ne_zero hd) e)
    (scaleDown num den e).1 (2 ^ (53 : Nat))
  rw [hscale, div_lt_iff₀ (zpow_pos two_pos e)] at hsmall
  have hcast : ((2 ^ (53 : Nat) : Nat) : ℚ) * 2 ^ e = 2 ^ (53 + e) := by
    rw [zpow_add₀ two_ne_zero]
    norm_num
  rw [hcast] at hsmall
  split
  · rename_i hlt
    refine ⟨by omega, hsmall.mp hlt, ?_⟩
    by_cases hleast : e = -1074
    · exact Or.inl hleast
    · exact Or.inr ((hpow (by omega)).trans hlow.le)
  · rename_i hge
    have hge := not_lt.mp (mt hsmall.mpr hge)
    refine ⟨by omega, hhigh.trans_le (hpow (by omega)), Or.inr ?_⟩
    exact le_of_eq_of_le (by congr 1; omega) hge

/-- A quotient whose mantissa is rounded to `m`: the value of `m`, after a carry of its own. -/
theorem ofRatio_of_mantissa {m : Nat} {e : Int} (negative : Bool) (hn : num ≠ 0)
    (he : exponentFor num den = e)
    (hm : divNearest (scaleDown num den e).1 (scaleDown num den e).2 = m) :
    ofRatio negative num den =
      if m = 2 ^ (53 : Nat) then
        if 971 < e + 1 then infinite negative else finite negative (2 ^ (52 : Nat)) (e + 1)
      else if m = 0 then finite negative 0 0
      else if 971 < e then infinite negative else finite negative m e := by
  unfold ofRatio
  rw [if_neg hn]
  simp only [he, hm]
  split
  · rfl
  · rfl

/-- Rounding gives canonical values only. -/
theorem canonical_ofRatio (negative : Bool) (hd : den ≠ 0) :
    (ofRatio negative num den).Canonical := by
  by_cases hn : num = 0
  · subst hn
    exact Or.inl ⟨rfl, rfl⟩
  obtain ⟨hleast, hhigh, hlow⟩ := exponentFor_bounds hn hd
  have hden := @scaleDown_den_pos num den (Nat.pos_of_ne_zero hd) (exponentFor num den)
  have hratio := @scaleDown_ratio num den (exponentFor num den)
  have hbits := div_lt_iff_ratio hden (scaleDown num den (exponentFor num den)).1
  have hunit : (0 : ℚ) < 2 ^ exponentFor num den := by positivity
  simp only [hratio, div_lt_iff₀ hunit] at hbits
  have hhigh := (hbits (2 ^ (53 : Nat))).mpr (by exact_mod_cast hhigh)
  have hlow : exponentFor num den = -1074 ∨ 2 ^ (52 : Nat) ≤
      (scaleDown num den (exponentFor num den)).1 / (scaleDown num den (exponentFor num den)).2 := by
    refine hlow.imp_right fun hlow => Nat.not_lt.mp fun hlt => ?_
    exact absurd ((hbits _).mp hlt) (not_lt.mpr (by exact_mod_cast hlow))
  have hcases := divNearest_cases (scaleDown num den (exponentFor num den)).1
    (scaleDown num den (exponentFor num den)).2
  generalize hm : divNearest (scaleDown num den (exponentFor num den)).1
    (scaleDown num den (exponentFor num den)).2 = m at hcases
  rw [ofRatio_of_mantissa negative hn rfl hm]
  split_ifs with hcarry hbig hzero hbig
  · trivial
  · exact Or.inr ⟨by decide, by decide, by omega, by omega, Or.inr (Nat.le_refl _)⟩
  · exact Or.inl ⟨rfl, rfl⟩
  · trivial
  · exact Or.inr ⟨by omega, by omega, hleast, by omega, by omega⟩

/-! ## The numbers around a value -/

section
variable {m : Nat} {e : Int} (hd : den ≠ 0) (h : Rounds m e (num / den))
include hd h

/-- Under the exponent of the value the mantissa is the one of the value. -/
theorem divNearest_of_rounds :
    divNearest (scaleDown num den e).1 (scaleDown num den e).2 = m := by
  have hunit : (0 : ℚ) < 2 ^ e := by positivity
  have hreach := mul_le_mul_of_nonneg_right (reach_le m e) hunit.le
  refine divNearest_eq (scaleDown_den_pos (Nat.pos_of_ne_zero hd) e) ?_ ?_ fun hodd => ?_
  all_goals rw [scaleDown_ratio]
  · rw [le_div_iff₀ hunit]
    linarith [h.low]
  · rw [div_le_iff₀ hunit]
    exact h.high
  · rw [lt_div_iff₀ hunit, div_lt_iff₀ hunit]
    exact ⟨by linarith [(h.odd hodd).1], (h.odd hodd).2⟩

variable (hp : Proper m e) (hn : num ≠ 0)
include hp hn

/-- A greater exponent would leave less than 52 bits. -/
theorem exponentFor_le_of_rounds : exponentFor num den ≤ e := by
  by_contra hlt
  obtain ⟨-, -, hfull⟩ := exponentFor_bounds hn hd
  have hleast := hp.least
  have hlow := hfull.resolve_left (by omega)
  have hunit : (0 : ℚ) < 2 ^ e := by positivity
  have hdouble : (2 : ℚ) ^ (e + 1) ≤ 2 ^ exponentFor num den :=
    zpow_le_zpow_right₀ one_le_two (by omega)
  rw [zpow_add_one₀ two_ne_zero] at hdouble
  have hm : (m : ℚ) + 1 ≤ 2 ^ (53 : Int) := by exact_mod_cast hp.bits
  have hhigh : (num : ℚ) / den < 2 ^ (53 : Int) * 2 ^ e :=
    h.high.trans_lt (mul_lt_mul_of_pos_right (by linarith) hunit)
  norm_num at hlow hhigh
  linarith

/-- A number just below a power of two has the exponent below, and is carried to the power. -/
theorem carry_of_rounds (hlt : exponentFor num den < e) :
    exponentFor num den = e - 1 ∧ m = 2 ^ (52 : Nat) ∧
      divNearest (scaleDown num den (e - 1)).1 (scaleDown num den (e - 1)).2 = 2 ^ (53 : Nat) := by
  obtain ⟨hleast, hbits, -⟩ := exponentFor_bounds hn hd
  have hunit : (0 : ℚ) < 2 ^ e := by positivity
  have hhalf : (2 : ℚ) ^ (e - 1) = 2 ^ e / 2 := by
    rw [zpow_sub_one₀ two_ne_zero, div_eq_mul_inv]
  have hsmall : (2 : ℚ) ^ exponentFor num den ≤ 2 ^ e / 2 :=
    hhalf ▸ zpow_le_zpow_right₀ one_le_two (by omega)
  have hreach := mul_le_mul_of_nonneg_right (reach_le m e) hunit.le
  have hlow := h.low
  have hfull : (2 : ℚ) ^ (52 : Int) ≤ m := by exact_mod_cast hp.full.resolve_left (by omega)
  have hbelow : ((m : ℚ) - 1 / 2) * 2 ^ e < 2 ^ (52 : Int) * 2 ^ e := by
    norm_num at hbits ⊢
    linarith
  have hpower : m = 2 ^ (52 : Nat) := by
    have hlt : (m : ℚ) < 2 ^ (52 : Int) + 1 := by
      linarith [lt_of_mul_lt_mul_right hbelow hunit.le]
    have hlt : m < 2 ^ (52 : Nat) + 1 := by exact_mod_cast hlt
    have hge : 2 ^ (52 : Nat) ≤ m := by exact_mod_cast hfull
    omega
  rw [reach, if_pos ⟨hpower, by omega⟩, hpower] at hlow
  have hE : exponentFor num den = e - 1 := by
    by_contra hne
    have hquarter : (2 : ℚ) ^ exponentFor num den ≤ 2 ^ (e - 1 - 1) :=
      zpow_le_zpow_right₀ one_le_two (by omega)
    rw [zpow_sub_one₀ two_ne_zero, hhalf] at hquarter
    norm_num at hquarter hbits hlow
    linarith
  refine ⟨hE, hpower, ?_⟩
  rw [hE, hhalf] at hbits
  refine divNearest_eq (scaleDown_den_pos (Nat.pos_of_ne_zero hd) _) ?_ ?_
    fun hodd => absurd hodd (by decide)
  all_goals rw [scaleDown_ratio, hhalf]
  · rw [le_div_iff₀ (by linarith)]
    norm_num at hlow ⊢
    linarith
  · rw [div_le_iff₀ (by linarith)]
    norm_num at hbits ⊢
    linarith

end

/-- A quotient is rounded to the value that it lies around. -/
theorem ofRatio_of_rounds {m : Nat} {e : Int} (negative : Bool) (hp : Proper m e) (hd : den ≠ 0)
    (h : Rounds m e (num / den)) : ofRatio negative num den = finite negative m e := by
  have hn : num ≠ 0 := by
    rintro rfl
    have := h.pos hp.pos
    simp at this
  have hmost := hp.most
  rcases Int.lt_or_eq_of_le (exponentFor_le_of_rounds hd h hp hn) with hlt | heq
  · obtain ⟨hE, hpower, hcarry⟩ := carry_of_rounds hd h hp hn hlt
    rw [ofRatio_of_mantissa negative hn hE hcarry, if_pos rfl, if_neg (by omega), hpower,
      Int.sub_add_cancel]
  · have hmantissa := divNearest_of_rounds hd h
    rw [ofRatio_of_mantissa negative hn heq hmantissa, if_neg (Nat.ne_of_lt hp.bits),
      if_neg hp.pos.ne', if_neg (by omega)]

end

/-! ## Decimals -/

theorem lt_ten_pow_size (c : Nat) : (c : ℚ) < 10 ^ ((c.log2 / 3 + 1 : Nat) : Int) := by
  have hbits : c < 2 ^ (3 * (c.log2 / 3 + 1)) :=
    Nat.lt_of_lt_of_le Nat.lt_log2_self (Nat.pow_le_pow_right (by decide) (by omega))
  rw [Nat.pow_mul] at hbits
  have hten : c < 10 ^ (c.log2 / 3 + 1) :=
    Nat.lt_of_lt_of_le hbits (Nat.pow_le_pow_left (by decide) _)
  exact_mod_cast hten

theorem two_zpow_le_ten_zpow (k : Nat) : (2 : ℚ) ^ (3 * k : Int) ≤ 10 ^ (k : Int) := by
  rw [zpow_mul, zpow_natCast, zpow_natCast]
  exact pow_le_pow_left₀ (by norm_num) (by norm_num) k

/-- A decimal in the range of the format is neither too large nor too small to be looked at. -/
theorem decimal_power_bounds {c : Nat} {p : Int} (hc : c ≠ 0)
    (hleast : (2 : ℚ) ^ (-1075 : Int) ≤ c * 10 ^ p) (hmost : c * 10 ^ p < (2 : ℚ) ^ (1024 : Int)) :
    p ≤ 400 ∧ -400 ≤ p + ((c.log2 : Int) / 3 + 1) := by
  have hone : (1 : ℚ) ≤ c := by exact_mod_cast Nat.pos_of_ne_zero hc
  have hten : (0 : ℚ) < 10 ^ p := by positivity
  have hcubes : (2 : ℚ) ^ (3 * (400 : Nat) : Int) ≤ 10 ^ ((400 : Nat) : Int) :=
    two_zpow_le_ten_zpow 400
  constructor
  · by_contra hlarge
    have hlast : (2 : ℚ) ^ (1024 : Int) ≤ c * 10 ^ p := calc
      _ ≤ (2 : ℚ) ^ (3 * (400 : Nat) : Int) := zpow_le_zpow_right₀ one_le_two (by decide)
      _ ≤ 10 ^ p := hcubes.trans (zpow_le_zpow_right₀ (by norm_num) (by omega))
      _ ≤ c * 10 ^ p := le_mul_of_one_le_left hten.le hone
    exact absurd hmost hlast.not_gt
  · by_contra hsmall
    have hfirst : c * 10 ^ p < (2 : ℚ) ^ (-1075 : Int) := calc
      _ < 10 ^ ((c.log2 / 3 + 1 : Nat) : Int) * 10 ^ p :=
        mul_lt_mul_of_pos_right (lt_ten_pow_size c) hten
      _ = 10 ^ (((c.log2 / 3 + 1 : Nat) : Int) + p) := (zpow_add₀ (by norm_num) _ _).symm
      _ ≤ 10 ^ (-((400 : Nat) : Int)) := zpow_le_zpow_right₀ (by norm_num) (by omega)
      _ ≤ 2 ^ (-(3 * (400 : Nat) : Int)) := by
        rw [zpow_neg, zpow_neg]
        exact inv_anti₀ (by positivity) hcubes
      _ ≤ 2 ^ (-1075 : Int) := zpow_le_zpow_right₀ one_le_two (by decide)
    exact absurd hleast hfirst.not_ge

/-- A decimal is read as the value that it lies around. -/
theorem ofDecimal_of_rounds {m c : Nat} {e p : Int} (negative : Bool) (hp : Proper m e)
    (h : Rounds m e (c * 10 ^ p)) : ofDecimal negative c p = finite negative m e := by
  have hpos := h.pos hp.pos
  have hc : c ≠ 0 := by
    rintro rfl
    simp at hpos
  obtain ⟨hleast, hmost⟩ := h.range hp
  obtain ⟨hpower, hsize⟩ := decimal_power_bounds hc hleast hmost
  unfold ofDecimal
  dsimp only
  rw [if_neg hc, if_neg (by omega), if_neg (by omega)]
  split
  · rename_i hneg
    refine ofRatio_of_rounds negative hp (Nat.pos_iff_ne_zero.mp (Nat.pow_pos (by decide))) ?_
    have hcast : ((10 ^ (-p).toNat : Nat) : ℚ) = (10 ^ p)⁻¹ := by
      rw [← zpow_neg, ← Int.toNat_of_nonneg (show 0 ≤ -p by omega), zpow_natCast]
      push_cast
      rfl
    rwa [hcast, div_inv_eq_mul]
  · rename_i hsign
    refine ofRatio_of_rounds negative hp one_ne_zero ?_
    have hcast : ((10 ^ p.toNat : Nat) : ℚ) = 10 ^ p := by
      conv_rhs => rw [← Int.toNat_of_nonneg (show 0 ≤ p by omega), zpow_natCast]
      push_cast
      rfl
    rwa [Nat.cast_mul, hcast, Nat.cast_one, div_one]

theorem canonical_ofDecimal (negative : Bool) (c : Nat) (p : Int) :
    (ofDecimal negative c p).Canonical := by
  unfold ofDecimal
  dsimp only
  split_ifs
  · exact Or.inl ⟨rfl, rfl⟩
  · trivial
  · exact Or.inl ⟨rfl, rfl⟩
  · exact canonical_ofRatio negative (Nat.pos_iff_ne_zero.mp (Nat.pow_pos (by decide)))
  · exact canonical_ofRatio negative one_ne_zero

end BackendFuzz.Binary64
