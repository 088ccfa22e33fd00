import BackendFuzz.Number.Decimal
import BackendFuzz.Proofs.Number.Rounding
import Mathlib.Tactic.Ring

/-!
# The shortest decimal reads back

The decimal of a value is taken from a grid with a point among the numbers that
are rounded to it. The finest of the grids that are tried is finer than half a
unit, so one of them has such a point, and whatever text spells that decimal is
read as the value.
-/

namespace BackendFuzz

attribute [local instance(high)] instPowNat

open Binary64 (Proper Rounds reach magnitude)

namespace Binary64

theorem magnitude_den_pos (m : Nat) (e : Int) : 0 < (magnitude m e).2 := by
  unfold magnitude
  split
  · exact Nat.two_pow_pos _
  · exact Nat.one_pos

theorem magnitude_ratio (m : Nat) (e : Int) :
    ((magnitude m e).1 : ℚ) / (magnitude m e).2 = m * 2 ^ e := by
  cases e with
  | ofNat p =>
    rw [Int.ofNat_eq_natCast, magnitude, if_neg (by omega), zpow_natCast, Int.toNat_natCast]
    push_cast
    rw [div_one]
  | negSucc k =>
    rw [magnitude, if_pos (Int.negSucc_lt_zero k), zpow_negSucc]
    push_cast
    rfl

theorem magnitude_den (m m' : Nat) (e : Int) : (magnitude m e).2 = (magnitude m' e).2 := by
  unfold magnitude
  split
  · rfl
  · rfl

end Binary64

namespace Decimal

def value (d : Decimal) : ℚ := d.digits * 10 ^ d.power

section
variable {num den : Nat}

theorem scaleDown_den_pos (hd : 0 < den) (k : Int) : 0 < (scaleDown num den k).2 := by
  unfold scaleDown
  split
  · exact hd
  · exact Nat.mul_pos hd (Nat.pow_pos (by decide))

theorem scaleDown_ratio (k : Int) :
    ((scaleDown num den k).1 : ℚ) / (scaleDown num den k).2 = num / den / 10 ^ k := by
  cases k with
  | ofNat p =>
    rw [Int.ofNat_eq_natCast, scaleDown, if_neg (by omega), zpow_natCast, Int.toNat_natCast]
    push_cast
    rw [div_div]
  | negSucc k =>
    rw [scaleDown, if_pos (Int.negSucc_lt_zero k), zpow_negSucc]
    push_cast
    rw [div_inv_eq_mul, mul_div_right_comm]
    rfl

variable (hd : 0 < den) (n : Nat) (k : Int)
include hd

theorem scaleDown_le_iff :
    (scaleDown num den k).1 ≤ n * (scaleDown num den k).2 ↔ (num : ℚ) / den ≤ n * 10 ^ k := by
  have hpos : (0 : ℚ) < (scaleDown num den k).2 := by exact_mod_cast scaleDown_den_pos hd k
  rw [← div_le_iff₀ (by positivity), ← scaleDown_ratio, div_le_iff₀ hpos]
  exact_mod_cast Iff.rfl

theorem le_scaleDown_iff :
    n * (scaleDown num den k).2 ≤ (scaleDown num den k).1 ↔ n * 10 ^ k ≤ (num : ℚ) / den := by
  have hpos : (0 : ℚ) < (scaleDown num den k).2 := by exact_mod_cast scaleDown_den_pos hd k
  rw [← le_div_iff₀ (by positivity), ← scaleDown_ratio, le_div_iff₀ hpos]
  exact_mod_cast Iff.rfl

end

/-! ## The numbers around a value -/

theorem cell_den_pos (m : Nat) (e : Int) : 0 < (cell m e).den :=
  Nat.mul_pos (by decide) (Binary64.magnitude_den_pos _ _)

section
variable {m : Nat} {e : Int}

theorem cell_low (hm : 0 < m) :
    ((cell m e).low : ℚ) / (cell m e).den = (m - reach m e) * 2 ^ e := by
  have hfour : ∀ step : Nat, step ≤ 2 →
      ((magnitude (4 * m - step) e).1 : ℚ) / (4 * (magnitude (4 * m - step) e).2 : Nat) =
        (m - step / 4) * 2 ^ e := by
    intro step hstep
    have hle : step ≤ 4 * m := by omega
    rw [Nat.cast_mul, mul_comm (4 : Nat).cast, ← div_div, Binary64.magnitude_ratio]
    push_cast [hle]
    ring
  show ((magnitude _ e).1 : ℚ) / (4 * (magnitude _ e).2 : Nat) = _
  unfold reach
  split
  · exact_mod_cast hfour 1 (by decide)
  · rw [hfour 2 (by decide)]
    norm_num

theorem cell_high : ((cell m e).high : ℚ) / (cell m e).den = (m + 1 / 2) * 2 ^ e := by
  show ((magnitude (4 * m + 2) e).1 : ℚ) / (4 * (magnitude _ e).2 : Nat) = _
  rw [Binary64.magnitude_den _ (4 * m + 2), Nat.cast_mul, mul_comm (4 : Nat).cast, ← div_div,
    Binary64.magnitude_ratio]
  push_cast
  ring

/-- A decimal lies in the cell exactly if it is rounded to the value. -/
theorem holds_iff (hm : 0 < m) (n : Nat) (k : Int) :
    (cell m e).holds n k = true ↔ Rounds m e (n * 10 ^ k) := by
  have hden := cell_den_pos m e
  have hlow := @scaleDown_le_iff (cell m e).low _ hden n k
  have hhigh := @le_scaleDown_iff (cell m e).high _ hden n k
  have hlowStrict := not_congr (@le_scaleDown_iff (cell m e).low _ hden n k)
  have hhighStrict := not_congr (@scaleDown_le_iff (cell m e).high _ hden n k)
  rw [cell_low hm] at hlow hlowStrict
  rw [cell_high] at hhigh hhighStrict
  rw [not_le, not_le] at hlowStrict hhighStrict
  have hclosed : (cell m e).closed = (m % 2 == 0) := rfl
  unfold Cell.holds
  dsimp only
  split
  · rename_i heven
    rw [hclosed, beq_iff_eq] at heven
    rw [Bool.and_eq_true, decide_eq_true_eq, decide_eq_true_eq, hlow, hhigh]
    exact ⟨fun h => ⟨h.1, h.2, fun hodd => by omega⟩, fun h => ⟨h.low, h.high⟩⟩
  · rename_i hodd
    rw [hclosed, beq_iff_eq] at hodd
    rw [Bool.and_eq_true, decide_eq_true_eq, decide_eq_true_eq, hlowStrict, hhighStrict]
    exact ⟨fun h => ⟨h.1.le, h.2.le, fun _ => h⟩, fun h => h.odd (by omega)⟩

/-! ## Grids -/

theorem onGrid?_rounds (hm : 0 < m) {k : Int} {d : Decimal} (h : onGrid? m e k = some d) :
    Rounds m e d.value := by
  unfold onGrid? at h
  dsimp only at h
  split at h
  · rename_i hbelow habove
    cases h
    rw [value]
    dsimp only
    rcases Binary64.divNearest_cases (scaleDown (magnitude m e).1 (magnitude m e).2 k).1
      (scaleDown (magnitude m e).1 (magnitude m e).2 k).2 with ⟨h, -⟩ | ⟨h, -⟩
    · rw [h]
      exact (holds_iff hm _ k).mp hbelow
    · rw [h]
      exact (holds_iff hm _ k).mp habove
  · rename_i hbelow habove
    cases h
    exact (holds_iff hm _ k).mp hbelow
  · rename_i hbelow habove
    cases h
    exact (holds_iff hm _ k).mp habove
  · cases h

/-- A grid finer than half a unit has a point among the numbers around the value. -/
theorem onGrid?_isSome (hm : 0 < m) {k : Int} (hk : (10 : ℚ) ^ k < 2 ^ e / 2) :
    ∃ d, onGrid? m e k = some d := by
  have hten : (0 : ℚ) < 10 ^ k := by positivity
  have hden := @scaleDown_den_pos (magnitude m e).1 _ (Binary64.magnitude_den_pos m e) k
  have hratio := @scaleDown_ratio (magnitude m e).1 (magnitude m e).2 k
  rw [Binary64.magnitude_ratio] at hratio
  have hbetween := Binary64.div_lt_iff_ratio hden (scaleDown (magnitude m e).1 (magnitude m e).2 k).1
  simp only [hratio, div_lt_iff₀ hten] at hbetween
  generalize hq : (scaleDown (magnitude m e).1 (magnitude m e).2 k).1 /
    (scaleDown (magnitude m e).1 (magnitude m e).2 k).2 = q at hbetween
  have hlow := not_lt.mp (mt (hbetween q).mpr (Nat.lt_irrefl q))
  have hhigh := (hbetween (q + 1)).mp (Nat.lt_succ_self q)
  push_cast at hhigh
  have habove : (cell m e).holds (q + 1) k = true := by
    have hbelow : (m - reach m e) * 2 ^ e < ((q + 1 : Nat) : ℚ) * 10 ^ k := by
      push_cast
      linarith [(Binary64.rounds_self m e).low]
    have habove : ((q + 1 : Nat) : ℚ) * 10 ^ k < (m + 1 / 2) * 2 ^ e := by
      push_cast
      linarith
    exact (holds_iff hm _ k).mpr ⟨hbelow.le, habove.le, fun _ => ⟨hbelow, habove⟩⟩
  unfold onGrid?
  dsimp only
  rw [hq, habove]
  split
  all_goals first | exact ⟨_, rfl⟩ | cases ‹_›

/-- One of a number of grids has a point among the numbers around the value. -/
theorem firstHit_rounds (hm : 0 < m) (fuel : Nat) {k : Int}
    (hk : (10 : ℚ) ^ (k - fuel) < 2 ^ e / 2) :
    Rounds m e (firstHit m e (fuel + 1) k).value := by
  induction fuel generalizing k with
  | zero =>
    obtain ⟨d, hd⟩ := onGrid?_isSome hm (by simpa using hk)
    rw [firstHit, hd]
    exact onGrid?_rounds hm hd
  | succ fuel ih =>
    rw [firstHit]
    split
    · rename_i d hd
      exact onGrid?_rounds hm hd
    · refine ih ?_
      rwa [sub_sub, add_comm, ← Nat.cast_succ]

theorem value_stripZeros (fuel : Nat) (d : Decimal) : (stripZeros fuel d).value = d.value := by
  induction fuel generalizing d with
  | zero => rfl
  | succ fuel ih =>
    rw [stripZeros]
    split
    · rename_i h
      have hten : ((10 * (d.digits / 10) : Nat) : ℚ) = d.digits :=
        congrArg Nat.cast (Nat.mul_div_cancel' (Nat.dvd_of_mod_eq_zero h.2))
      rw [ih, value, value, zpow_add_one₀ (by norm_num), ← hten]
      push_cast
      ring
    · rfl

end

/-! ## The leading power -/

/-- The decimal logarithm of two is 0.30103 and a little less. -/
theorem log_two : 2 ^ (100000 : Nat) ≤ 10 ^ (30103 : Nat) ∧
    10 ^ (30103 : Nat) ≤ 2 ^ (100001 : Nat) := by
  decide +kernel

theorem log_two_mul (t : Nat) :
    (2 : ℚ) ^ (t * (100000 : Nat) : Int) ≤ 10 ^ (t * (30103 : Nat) : Int) ∧
      (10 : ℚ) ^ (t * (30103 : Nat) : Int) ≤ 2 ^ (t * (100001 : Nat) : Int) := by
  have hpow := log_two.imp (Nat.pow_le_pow_left · t) (Nat.pow_le_pow_left · t)
  simp only [← Nat.pow_mul, Nat.mul_comm _ t] at hpow
  simp only [← Nat.cast_mul, zpow_natCast]
  exact_mod_cast hpow

theorem ten_zpow_le_of_scaled {g b : Int}
    (h : (10 : ℚ) ^ (g * (100000 : Nat) : Int) ≤ 2 ^ (b * (100000 : Nat) : Int)) :
    (10 : ℚ) ^ g ≤ 2 ^ b := by
  rw [zpow_mul, zpow_mul, zpow_natCast, zpow_natCast] at h
  exact le_of_pow_le_pow_left₀ (by decide) (by positivity) h

theorem ten_zpow_guess_le {s : Int} (hs : s ≤ 200000) :
    (10 : ℚ) ^ ((s * 30103).fdiv 100000 - 1) ≤ 2 ^ (s - 1) := by
  have hguess : (s * 30103).fdiv 100000 * 100000 ≤ s * 30103 := by
    rw [Int.fdiv_eq_ediv_of_nonneg _ (by decide)]
    omega
  generalize (s * 30103).fdiv 100000 = g at *
  have hten : ∀ {a b : Int}, a ≤ b → (10 : ℚ) ^ a ≤ 10 ^ b := fun h =>
    zpow_le_zpow_right₀ (by norm_num) h
  have htwo : ∀ {a b : Int}, a ≤ b → (2 : ℚ) ^ a ≤ 2 ^ b := fun h =>
    zpow_le_zpow_right₀ one_le_two h
  have hfour : (10 : ℚ) ^ g ≤ 2 ^ (s + 2) := by
    refine ten_zpow_le_of_scaled ?_
    rcases Int.eq_nat_or_neg s with ⟨t, rfl | rfl⟩
    · calc (10 : ℚ) ^ (g * (100000 : Nat) : Int)
        _ ≤ 10 ^ (t * (30103 : Nat) : Int) := hten (by omega)
        _ ≤ 2 ^ (t * (100001 : Nat) : Int) := (log_two_mul t).2
        _ ≤ 2 ^ ((t + 2) * (100000 : Nat) : Int) := htwo (by omega)
    · calc (10 : ℚ) ^ (g * (100000 : Nat) : Int)
        _ ≤ 10 ^ (-(t * (30103 : Nat)) : Int) := hten (by omega)
        _ ≤ 2 ^ (-(t * (100000 : Nat)) : Int) := by
          rw [zpow_neg, zpow_neg]
          exact inv_anti₀ (by positivity) (log_two_mul t).1
        _ ≤ 2 ^ ((-t + 2) * (100000 : Nat) : Int) := htwo (by omega)
  rw [zpow_add₀ two_ne_zero] at hfour
  rw [zpow_sub_one₀ (by norm_num), zpow_sub_one₀ two_ne_zero]
  have hunit : (0 : ℚ) < 2 ^ s := by positivity
  norm_num at hfour ⊢
  linarith

/-- A guess at or below the leading power stays so when it climbs. -/
theorem climb_le {num den : Nat} (hd : 0 < den) {k : Int} (h : (10 : ℚ) ^ k ≤ num / den) :
    (10 : ℚ) ^ (if (scaleDown num den (k + 1)).2 ≤ (scaleDown num den (k + 1)).1 then k + 1 else k) ≤
      num / den := by
  split
  · rename_i hle
    have := (le_scaleDown_iff hd 1 (k + 1)).mp (by rwa [Nat.one_mul])
    rwa [Nat.cast_one, one_mul] at this
  · exact h

/-- The leading power is at or below the value. -/
theorem ten_zpow_leadingPower_le {m : Nat} {e : Int} (hp : Proper m e) :
    (10 : ℚ) ^ leadingPower m e ≤ m * 2 ^ e := by
  have hden := Binary64.magnitude_den_pos m e
  have hratio := Binary64.magnitude_ratio m e
  have hself := Binary64.rounds_self m e
  have hnum : (magnitude m e).1 ≠ 0 := by
    intro h
    rw [h, Nat.cast_zero, zero_div] at hratio
    exact absurd hratio (hself.pos hp.pos).ne
  have hlog := Binary64.ratio_log2 hnum hden.ne'
  rw [hratio] at hlog
  have hsize : ((magnitude m e).1.log2 : Int) - (magnitude m e).2.log2 ≤ 200000 := by
    by_contra hlarge
    have hpow : (2 : ℚ) ^ (1024 : Int) ≤ m * 2 ^ e :=
      (zpow_le_zpow_right₀ one_le_two (by omega)).trans hlog.1.le
    exact absurd (hself.range hp).2 hpow.not_gt
  have hguess := (ten_zpow_guess_le hsize).trans hlog.1.le
  rw [← hratio] at hguess ⊢
  exact climb_le hden (climb_le hden (climb_le hden hguess))

/-! ## The shortest decimal -/

theorem shortest_rounds {m : Nat} {e : Int} (hp : Proper m e) :
    Rounds m e (shortest m e).value := by
  have hbits : (m : ℚ) < 2 ^ (53 : Int) := by exact_mod_cast hp.bits
  have hunit : (0 : ℚ) < 2 ^ e := by positivity
  have hleading := ten_zpow_leadingPower_le hp
  have hfine : (10 : ℚ) ^ (leadingPower m e - (17 : Nat)) < 2 ^ e / 2 := by
    have := mul_lt_mul_of_pos_right hbits hunit
    rw [zpow_sub₀ (by norm_num), div_lt_iff₀ (by positivity)]
    norm_num at this ⊢
    linarith
  rw [shortest, if_neg hp.pos.ne', value_stripZeros]
  exact firstHit_rounds hp.pos 17 hfine

end Decimal

/-- Whatever spells the shortest decimal of a value is read as the value. -/
theorem Binary64.ofDecimal_of_shortest {m c : Nat} {e p : Int} (negative : Bool)
    (h : (finite negative m e).Canonical) (hc : c * 10 ^ p = (Decimal.shortest m e).value) :
    ofDecimal negative c p = finite negative m e := by
  rcases h with ⟨rfl, rfl⟩ | hp
  · have hzero : c = 0 := by
      rw [Decimal.shortest, if_pos rfl, Decimal.value] at hc
      simpa [zpow_ne_zero] using hc
    rw [hzero]
    rfl
  · exact ofDecimal_of_rounds negative hp (hc ▸ Decimal.shortest_rounds hp)

end BackendFuzz
