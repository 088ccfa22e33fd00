import BackendFuzz.Proofs.Json.Lexemes
import BackendFuzz.Proofs.Number.Shortest

/-!
# Reading what is printed: numbers with a fraction

A decimal is laid out with a point, or with an exponent where it is far from one.
Either way the text is read as one number, worth the decimal.
-/

namespace BackendFuzz

attribute [local instance(high)] instPowNat

namespace Json

/-! ## Parts of a number -/

theorem fractionPart_digits {ds rest : List Char} (hne : ds ≠ [])
    (hds : ∀ c ∈ ds, isAsciiDigit c = true) (hrest : NoDigit rest) :
    fractionPart ('.' :: (ds ++ rest)) = (some ds, rest) := by
  have htake := takeWhile_digits hds hrest
  have hdrop := dropWhile_digits hds hrest
  cases ds with
  | nil => exact absurd rfl hne
  | cons d ds =>
    rw [List.cons_append] at *
    rw [fractionPart, if_pos (hds d List.mem_cons_self), htake, hdrop]

theorem fractionPart_exponent (rest : List Char) :
    fractionPart ('e' :: rest) = (none, 'e' :: rest) := rfl

theorem ofDigits_zeros (k : Nat) (cs : List Char) :
    ofDigits (digitsOf (List.replicate k '0' ++ cs)) = ofDigits (digitsOf cs) := by
  induction k with
  | zero => rfl
  | succ k ih => exact ih

theorem digits_zeros (k n : Nat) :
    ∀ c ∈ List.replicate k '0' ++ Nat.toDigits 10 n, isAsciiDigit c = true := by
  intro c hc
  rcases List.mem_append.mp hc with hc | hc
  · rw [(List.mem_replicate.mp hc).2]
    rfl
  · exact isAsciiDigit_of_mem_toDigits c hc

theorem toList_exponentText (l : Decimal.Layout) (e : Int) : ∃ k,
    (Decimal.exponentText l e).toList =
      (if e < 0 then '-' else '+') :: (List.replicate k '0' ++ Nat.toDigits 10 e.natAbs) := by
  refine ⟨l.exponentDigits - (toString e.natAbs).length, ?_⟩
  rw [Decimal.exponentText, String.toList_append, String.toList_append, Decimal.zerosText,
    String.toList_ofList, Nat.toString_eq_repr, Nat.toList_repr]
  split
  · rfl
  · rfl

theorem exponentPart_text (l : Decimal.Layout) (e : Int) {rest : List Char} (hrest : NoDigit rest) :
    exponentPart ('e' :: ((Decimal.exponentText l e).toList ++ rest)) = (some e, rest) := by
  obtain ⟨k, htext⟩ := toList_exponentText l e
  have htake := takeWhile_digits (digits_zeros k e.natAbs) hrest
  have hdrop := dropWhile_digits (digits_zeros k e.natAbs) hrest
  have hsign : exponentSign ((Decimal.exponentText l e).toList ++ rest) =
      (decide (e < 0), List.replicate k '0' ++ Nat.toDigits 10 e.natAbs ++ rest) := by
    rw [htext]
    by_cases he : e < 0
    · rw [if_pos he, decide_eq_true he]
      rfl
    · rw [if_neg he, decide_eq_false he]
      rfl
  rw [exponentPart, if_pos (Or.inl rfl), hsign]
  dsimp only
  rw [htake, hdrop, if_neg (by simp), ofDigits_zeros, ofDigits_digitsOf_toDigits]
  have he : (if decide (e < 0) = true then -(e.natAbs : Int) else e.natAbs) = e := by
    simp only [decide_eq_true_eq]
    split <;> omega
  rw [he]

/-- A text that is read as one number, worth `c * 10 ^ p`, whatever may follow it. -/
structure SpellsReal (cs : List Char) (c : Nat) (p : Int) : Prop where
  head : ∃ d ds, cs = d :: ds ∧ isAsciiDigit d = true
  read : ∀ {rest : List Char}, Stops rest → ∀ (start : List Char) (minus : Bool),
    readNumber start minus (cs ++ rest) = .ok (real (Binary64.ofDecimal minus c p), rest)

theorem Whole.head {ds : List Char} (h : Whole ds) (rest : List Char) :
    ∃ c cs, ds ++ rest = c :: cs ∧ isAsciiDigit c = true := by
  cases ds with
  | nil => exact absurd rfl h.nonempty
  | cons d ds => exact ⟨d, ds ++ rest, rfl, h.digits d List.mem_cons_self⟩

section
variable {whole places : List Char} (hwhole : Whole whole)
include hwhole

theorem spells_exponent (l : Decimal.Layout) (e : Int) :
    SpellsReal (whole ++ 'e' :: (Decimal.exponentText l e).toList) (ofDigits (digitsOf whole)) e where
  head := hwhole.head _
  read := by
    intro rest hrest start minus
    rw [List.append_assoc, List.cons_append, readNumber,
      hwhole.wholePart? (noDigit_cons (by decide) _)]
    dsimp only
    rw [fractionPart_exponent]
    dsimp only
    rw [exponentPart_text l e hrest.noDigit]
    simp

variable (hne : places ≠ []) (hplaces : ∀ c ∈ places, isAsciiDigit c = true)
include hne hplaces

theorem spells_point :
    SpellsReal (whole ++ '.' :: places) (ofDigits (digitsOf (whole ++ places)))
      (-places.length) where
  head := hwhole.head _
  read := by
    intro rest hrest start minus
    rw [List.append_assoc, List.cons_append, readNumber,
      hwhole.wholePart? (noDigit_cons (by decide) _)]
    dsimp only
    rw [fractionPart_digits hne hplaces hrest.noDigit]
    dsimp only
    rw [hrest.exponentPart]
    simp

theorem spells_point_exponent (l : Decimal.Layout) (e : Int) :
    SpellsReal (whole ++ '.' :: places ++ 'e' :: (Decimal.exponentText l e).toList)
      (ofDigits (digitsOf (whole ++ places))) (e - places.length) where
  head := by
    rw [List.append_assoc]
    exact hwhole.head _
  read := by
    intro rest hrest start minus
    rw [List.append_assoc, List.append_assoc, List.cons_append, List.cons_append, readNumber,
      hwhole.wholePart? (noDigit_cons (by decide) _)]
    dsimp only
    rw [fractionPart_digits hne hplaces (noDigit_cons (by decide) _)]
    dsimp only
    rw [exponentPart_text l e hrest.noDigit]
    simp

end

/-! ## Layouts -/

/-- Digits with zeros in front as far as some are needed before the last places. -/
theorem whole_take {digits places : Nat} (h : 0 < places) {cs : List Char}
    (hcs : List.replicate (places + 1 - (Nat.toDigits 10 digits).length) '0' ++
      Nat.toDigits 10 digits = cs) :
    places < cs.length ∧ Whole (cs.take (cs.length - places)) := by
  have hlength := congrArg List.length hcs
  rw [List.length_append, List.length_replicate] at hlength
  refine ⟨by omega, ?_, fun c hc => ?_, fun hzero => ?_⟩
  · exact List.ne_nil_of_length_pos (by rw [List.length_take]; omega)
  · exact digits_zeros _ _ c (hcs ▸ List.mem_of_mem_take hc)
  · by_cases hshort : (Nat.toDigits 10 digits).length ≤ places
    · have hone : cs.length - places = 1 := by omega
      obtain ⟨k, hk⟩ := Nat.exists_eq_succ_of_ne_zero
        (show places + 1 - (Nat.toDigits 10 digits).length ≠ 0 by omega)
      rw [hone, ← hcs, hk]
      rfl
    · rw [show places + 1 - (Nat.toDigits 10 digits).length = 0 by omega] at hcs
      rw [← hcs, List.replicate_zero, List.nil_append, List.head?_take, if_neg (by omega)] at hzero
      have hsingle := congrArg List.length ((whole_toDigits digits).zero hzero)
      rw [List.length_singleton] at hsingle
      omega

/-- A point before the last places, with at least one digit in front of it. -/
theorem spells_withPoint (digits : Nat) {places : Nat} (h : 0 < places) :
    SpellsReal (Decimal.withPoint digits places).toList digits (-places) := by
  unfold Decimal.withPoint
  dsimp only
  rw [if_neg h.ne', String.toList_ofList, Nat.toString_eq_repr, Nat.toList_repr]
  generalize hcs : List.replicate (places + 1 - (Nat.toDigits 10 digits).length) '0' ++
    Nat.toDigits 10 digits = cs
  obtain ⟨hlength, hwhole⟩ := whole_take h hcs
  have hplaces : (cs.drop (cs.length - places)).length = places := by
    rw [List.length_drop]
    omega
  have hspells := spells_point hwhole (List.ne_nil_of_length_pos (hplaces ▸ h))
    fun c hc => digits_zeros _ _ c (hcs ▸ List.mem_of_mem_drop hc)
  rwa [List.take_append_drop, hplaces, ← hcs, ofDigits_zeros, ofDigits_digitsOf_toDigits,
    hcs] at hspells

/-- A point behind the first of the digits, and the power of that digit as the exponent. -/
theorem spells_leading {digits : Nat} {d : Char} {ds : List Char}
    (h : Nat.toDigits 10 digits = d :: ds) (l : Decimal.Layout) (leading : Int) :
    SpellsReal (d :: (if ds = [] then [] else '.' :: ds) ++
      'e' :: (Decimal.exponentText l leading).toList) digits (leading - ds.length) := by
  have hvalue := ofDigits_digitsOf_toDigits digits
  have hdigits : ∀ c ∈ d :: ds, isAsciiDigit c = true := h ▸ isAsciiDigit_of_mem_toDigits
  rw [List.forall_mem_cons] at hdigits
  have hfirst : Whole [d] :=
    ⟨List.cons_ne_nil d [], List.forall_mem_singleton.mpr hdigits.1,
      fun hzero => by cases hzero; rfl⟩
  rw [h] at hvalue
  split
  · rename_i hnil
    subst hnil
    have hspells := spells_exponent hfirst l leading
    rw [hvalue] at hspells
    simpa using hspells
  · rename_i hcons
    have hspells := spells_point_exponent hfirst hcons hdigits.2 l leading
    rwa [List.singleton_append, List.singleton_append, hvalue] at hspells

/-- The text of a decimal is read as one number, worth the decimal. -/
theorem spells_text (d : Decimal) : ∃ c p,
    SpellsReal (d.text Decimal.Layout.real).toList c p ∧ c * 10 ^ p = d.value := by
  unfold Decimal.text
  dsimp only
  split
  · split
    · rename_i hneg
      refine ⟨_, _, spells_withPoint d.digits (show 0 < (-d.power).toNat by omega), ?_⟩
      rw [Int.toNat_of_nonneg (by omega), Int.neg_neg, Decimal.value]
    · rename_i hsign
      refine ⟨_, _, spells_withPoint _ Nat.one_pos, ?_⟩
      have hpower : (10 : ℚ) ^ d.power.toNat = 10 ^ d.power := by
        rw [← zpow_natCast, Int.toNat_of_nonneg (by omega)]
      rw [Decimal.value, ← hpower]
      push_cast
      rw [pow_succ, zpow_neg, zpow_one]
      field_simp
  · rw [Nat.toString_eq_repr, Nat.toList_repr]
    cases hds : Nat.toDigits 10 d.digits with
    | nil => exact absurd hds Nat.toDigits_ne_nil
    | cons c ds =>
      refine ⟨d.digits, ((c :: ds).length - 1 + d.power : Int) - ds.length, ?_, ?_⟩
      · have hspells := spells_leading hds Decimal.Layout.real ((c :: ds).length - 1 + d.power)
        cases ds with
        | nil => simpa using hspells
        | cons c' ds => simpa using hspells
      · rw [Decimal.value, List.length_cons]
        push_cast
        congr 2
        omega

theorem isAsciiDigit_plain {c : Char} (h : isAsciiDigit c = true) :
    isJsonBlank c = false ∧ c ≠ ']' := by
  constructor
  · rw [Bool.eq_false_iff]
    intro hblank
    simp only [isJsonBlank, Bool.or_eq_true, beq_iff_eq] at hblank
    rcases hblank with ((rfl | rfl) | rfl) | rfl <;> cases h
  · rintro rfl
    cases h

theorem printed_finite (negative : Bool) (m : Nat) (e : Int) :
    (real (.finite negative m e)).printed =
      (if negative then ['-'] else []) ++
        ((Decimal.shortest m e).text Decimal.Layout.real).toList := by
  have hsign : (if negative then "-" else "").toList = if negative then ['-'] else [] := by
    cases negative
    · rfl
    · rfl
  rw [← hsign, ← String.toList_append]
  rfl

end Json

end BackendFuzz
