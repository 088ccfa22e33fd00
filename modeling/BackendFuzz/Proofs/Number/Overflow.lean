import BackendFuzz.Number.Binary64

/-!
# Overflow

A quotient is rounded to an infinity exactly from half a unit below `2 ^ 1024`
on: there the greatest finite value and `2 ^ 1024` are equally near, and the
mantissa of the latter is the even one.
-/

namespace BackendFuzz.Binary64

attribute [local instance(high)] instPowNat

def overflowBound : Nat := (2 ^ (54 : Nat) - 1) * 2 ^ (970 : Nat)

theorem overflowBound_pos : 0 < overflowBound := by
  unfold overflowBound
  generalize 970 = n
  exact Nat.mul_pos (by decide) (Nat.two_pow_pos n)

theorem divNearest_cases (n d : Nat) :
    divNearest n d = n / d ∧ 2 * (n % d) ≤ d ∨ divNearest n d = n / d + 1 ∧ d ≤ 2 * (n % d) := by
  unfold divNearest
  dsimp only
  split
  · rename_i h
    simp only [Bool.or_eq_true, decide_eq_true_eq, Bool.and_eq_true, beq_iff_eq] at h
    exact Or.inl ⟨rfl, by omega⟩
  · rename_i h
    simp only [Bool.or_eq_true, decide_eq_true_eq, Bool.and_eq_true, beq_iff_eq, not_or] at h
    exact Or.inr ⟨rfl, by omega⟩

theorem divNearest_odd {n d : Nat} (hodd : n / d % 2 = 1) (h : d ≤ 2 * (n % d)) :
    divNearest n d = n / d + 1 := by
  unfold divNearest
  dsimp only
  rw [if_neg]
  simp only [Bool.or_eq_true, decide_eq_true_eq, Bool.and_eq_true, beq_iff_eq]
  omega

section
variable {num den : Nat}

theorem scaleDown_natCast (p : Nat) : scaleDown num den p = (num, den * 2 ^ p) := by
  unfold scaleDown
  rw [if_neg (by omega), Int.toNat_natCast]

theorem scaleDown_negSucc (k : Nat) :
    scaleDown num den (Int.negSucc k) = (num * 2 ^ (k + 1), den) := by
  unfold scaleDown
  rw [if_pos (Int.negSucc_lt_zero k)]
  rfl

/-- The exponent is the one under which a quotient that is not small has just 53 bits. -/
theorem exponentFor_spec (hn : num ≠ 0) (hd : den ≠ 0) :
    (∃ p : Nat, exponentFor num den = p ∧ num < den * 2 ^ (p + 53) ∧ den * 2 ^ (p + 52) ≤ num) ∨
      exponentFor num den < 0 ∧ num < den * 2 ^ (53 : Nat) := by
  have hnlow := Nat.log2_self_le hn
  have hnhigh := Nat.lt_log2_self (n := num)
  have hdlow := Nat.log2_self_le hd
  have hdhigh := Nat.lt_log2_self (n := den)
  have hbelow : ∀ k, num.log2 + 1 ≤ den.log2 + k → num < den * 2 ^ k := by
    intro k hk
    have hpow : 2 ^ (num.log2 + 1) ≤ 2 ^ (den.log2 + k) := Nat.pow_le_pow_right (by decide) hk
    have hmul := Nat.mul_le_mul_right (2 ^ k) hdlow
    rw [Nat.pow_add 2 den.log2] at hpow
    omega
  have habove : ∀ k, den.log2 + 1 + k ≤ num.log2 → den * 2 ^ k ≤ num := by
    intro k hk
    have hpow : 2 ^ (den.log2 + 1 + k) ≤ 2 ^ num.log2 := Nat.pow_le_pow_right (by decide) hk
    have hmul := Nat.mul_le_mul_right (2 ^ k) (Nat.le_of_lt hdhigh)
    rw [Nat.pow_add 2 (den.log2 + 1)] at hpow
    omega
  unfold exponentFor
  dsimp only
  generalize he : max (-1074) ((num.log2 : Int) - den.log2 - 53) = e
  cases e with
  | ofNat p =>
    have hlog : num.log2 = den.log2 + p + 53 := by
      rw [Int.ofNat_eq_natCast] at he
      omega
    rw [Int.ofNat_eq_natCast, scaleDown_natCast]
    dsimp only
    have hunit : den * 2 ^ p * 2 ^ (53 : Nat) = den * 2 ^ (p + 53) := by
      rw [Nat.mul_assoc, ← Nat.pow_add]
    have hpos : 0 < den * 2 ^ p := Nat.mul_pos (Nat.pos_of_ne_zero hd) (Nat.two_pow_pos p)
    split
    · rename_i hlt
      rw [Nat.div_lt_iff_lt_mul hpos, Nat.mul_comm, hunit] at hlt
      exact Or.inl ⟨p, rfl, hlt, habove _ (by omega)⟩
    · rename_i hge
      rw [Nat.div_lt_iff_lt_mul hpos, Nat.mul_comm, hunit, Nat.not_lt] at hge
      refine Or.inl ⟨p + 1, rfl, hbelow _ (by omega), ?_⟩
      rwa [Nat.add_assoc]
  | negSucc k =>
    have hsmall : num < den * 2 ^ (53 : Nat) := hbelow _ (by omega)
    rw [scaleDown_negSucc]
    dsimp only
    split
    · exact Or.inr ⟨Int.negSucc_lt_zero k, hsmall⟩
    · rename_i hge
      cases k with
      | succ k => exact Or.inr ⟨by omega, hsmall⟩
      | zero =>
        rw [Nat.div_lt_iff_lt_mul (Nat.pos_of_ne_zero hd), Nat.not_lt] at hge
        exact Or.inl ⟨0, rfl, hsmall, by omega⟩

theorem ofRatio_infinite_of {e : Int} {n d : Nat} (negative : Bool) (hn : num ≠ 0)
    (he : exponentFor num den = e) (hs : scaleDown num den e = (n, d)) :
    (∃ s, ofRatio negative num den = infinite s) ↔
      divNearest n d ≠ 0 ∧ 971 < if divNearest n d = 2 ^ (53 : Nat) then e + 1 else e := by
  unfold ofRatio
  rw [if_neg hn]
  simp only [he, hs]
  by_cases hcarry : divNearest n d = 2 ^ (53 : Nat)
  · simp only [hcarry, ↓reduceIte]
    by_cases hbig : 971 < e + 1
    · simp [hbig]
    · simp [hbig]
  · simp only [hcarry, ↓reduceIte]
    by_cases hzero : divNearest n d = 0
    · simp [hzero]
    · by_cases hbig : 971 < e
      · simp [hbig, hzero]
      · simp [hbig, hzero]

/-- The mantissa of a quotient that has 53 bits, rounded. -/
theorem divNearest_bits {unit : Nat} (hpos : 0 < unit) (hlow : 2 ^ (52 : Nat) * unit ≤ num)
    (hhigh : num < 2 ^ (53 : Nat) * unit) : divNearest num unit ≠ 0 ∧
      (divNearest num unit = 2 ^ (53 : Nat) ↔ (2 ^ (54 : Nat) - 1) * unit ≤ 2 * num) := by
  have hdiv := Nat.div_add_mod num unit
  have hmod := Nat.mod_lt num hpos
  have hqlow : 2 ^ (52 : Nat) ≤ num / unit := (Nat.le_div_iff_mul_le hpos).mpr hlow
  have hqhigh : num / unit < 2 ^ (53 : Nat) := (Nat.div_lt_iff_lt_mul hpos).mpr hhigh
  have hcases := divNearest_cases num unit
  have hodd := @divNearest_odd num unit
  generalize divNearest num unit = m at *
  generalize num % unit = r at *
  by_cases hq : num / unit = 2 ^ (53 : Nat) - 1
  · rw [hq] at hdiv hcases hodd
    refine ⟨by omega, ?_⟩
    constructor
    · intro hm
      omega
    · intro hle
      have := hodd (by decide) (by omega)
      omega
  · have hmul := Nat.mul_le_mul_left unit (show num / unit ≤ 2 ^ (53 : Nat) - 2 by omega)
    refine ⟨by omega, iff_of_false (by omega) (by omega)⟩

/-- A quotient is rounded to an infinity exactly from the bound on. -/
theorem ofRatio_infinite_iff (negative : Bool) (hd : den ≠ 0) :
    (∃ s, ofRatio negative num den = infinite s) ↔ overflowBound * den ≤ num := by
  have hpow : ∀ {m n}, m ≤ n → den * 2 ^ m ≤ den * 2 ^ n := fun h =>
    Nat.mul_le_mul_left den (Nat.pow_le_pow_right (by decide) h)
  have hsplit : ∀ {k} m n, k = m + n → den * 2 ^ k = 2 ^ n * (den * 2 ^ m) := by
    intro k m n hk
    rw [hk, Nat.pow_add, ← Nat.mul_assoc, Nat.mul_comm]
  have hpos : ∀ m, 0 < den * 2 ^ m := fun m =>
    Nat.mul_pos (Nat.pos_of_ne_zero hd) (Nat.two_pow_pos m)
  have hbound : overflowBound * den = (2 ^ (54 : Nat) - 1) * (den * 2 ^ (970 : Nat)) := by
    unfold overflowBound
    generalize 2 ^ (970 : Nat) = x
    rw [Nat.mul_assoc, Nat.mul_comm x]
  rw [hbound]
  by_cases hn : num = 0
  · subst hn
    have hzero : ofRatio negative 0 den = finite negative 0 0 := rfl
    have := hpos 970
    generalize den * 2 ^ (970 : Nat) = bound at *
    refine iff_of_false ?_ (by omega)
    rintro ⟨s, h⟩
    rw [hzero] at h
    cases h
  rcases exponentFor_spec hn hd with ⟨p, he, hhigh, hlow⟩ | ⟨he, hhigh⟩
  · rw [hsplit p 53 rfl] at hhigh
    rw [hsplit p 52 rfl] at hlow
    obtain ⟨hne, hcarry⟩ := divNearest_bits (hpos p) hlow hhigh
    rw [ofRatio_infinite_of negative hn he (scaleDown_natCast p), and_iff_right hne]
    -- The unit is at most, twice, or at least four times the one at the bound.
    rcases Nat.lt_trichotomy p 971 with hp | hp | hp
    · have hunit := hpow (Nat.le_of_lt_succ hp)
      generalize den * 2 ^ (970 : Nat) = bound at *
      generalize den * 2 ^ p = unit at *
      exact iff_of_false (by split <;> omega) (by omega)
    · have hunit : den * 2 ^ p = 2 ^ (1 : Nat) * (den * 2 ^ (970 : Nat)) := hsplit 970 1 hp
      have hstep : (971 : Int) <
          (if divNearest num (den * 2 ^ p) = 2 ^ (53 : Nat) then (p : Int) + 1 else (p : Int)) ↔
            divNearest num (den * 2 ^ p) = 2 ^ (53 : Nat) := by
        split
        · exact iff_of_true (by omega) ‹_›
        · exact iff_of_false (by omega) ‹_›
      rw [hstep, hcarry]
      generalize den * 2 ^ (970 : Nat) = bound at *
      omega
    · have hunit := hpow (show 970 + 2 ≤ p from hp)
      rw [hsplit 970 2 rfl] at hunit
      generalize den * 2 ^ (970 : Nat) = bound at *
      generalize den * 2 ^ p = unit at *
      exact iff_of_true (by split <;> omega) (by omega)
  · have hle := hpow (show 53 ≤ 970 by decide)
    generalize den * 2 ^ (970 : Nat) = bound at *
    rcases hs : scaleDown num den (exponentFor num den) with ⟨n, d⟩
    rw [ofRatio_infinite_of negative hn rfl hs]
    exact iff_of_false (fun h => by have := h.2; split at this <;> omega) (by omega)

end

end BackendFuzz.Binary64
