import BackendFuzz.Json.Parser
import BackendFuzz.Proofs.Json.Printable
import Mathlib.Data.List.Induction

/-!
# Reading what is printed: strings and whole numbers

Every character is printed as escapes that are read as that character, except
that two halves of a surrogate pair are read as one. So what is printed for a text
is read back if no two of its characters are such halves, and that is so if no
surrogate stands on its own.
-/

namespace BackendFuzz

namespace Text

/-! ## Halves of pairs -/

theorem toNat_lt (c : Char) : c.toNat < 0x110000 := by
  rcases c.valid with h | h
  · exact Nat.lt_trans h (by decide)
  · exact h.2

theorem not_surrogate (c : Char) : isSurrogate c.toNat = false := by
  have hvalid : c.toNat < 0xD800 ∨ 0xDFFF < c.toNat ∧ c.toNat < 0x110000 := c.valid
  simp only [isSurrogate, Bool.and_eq_false_iff, decide_eq_false_iff_not]
  omega

theorem isSurrogate_of_high {n : Nat} (h : isHighSurrogate n = true) : isSurrogate n = true := by
  simp only [isHighSurrogate, isSurrogate, Bool.and_eq_true, decide_eq_true_eq] at *
  omega

theorem point_of_standIn {c : Char} (h : isStandIn c.toNat = true) :
    point c + 0x100000 = c.toNat := by
  have hle : 0x100000 ≤ c.toNat := by
    simp only [isStandIn, Bool.and_eq_true, decide_eq_true_eq] at h
    omega
  rw [point, if_pos h]
  exact Nat.sub_add_cancel hle

theorem surrogate_of_standIn {c : Char} (h : isStandIn c.toNat = true) :
    isSurrogate (point c) = true := by
  have hpoint := point_of_standIn h
  generalize point c = p at hpoint
  simp only [isStandIn, ← hpoint, Bool.and_eq_true, decide_eq_true_eq] at h
  simp only [isSurrogate, Bool.and_eq_true, decide_eq_true_eq]
  omega

/-- A character either holds its own code point or stands in for a surrogate. -/
theorem point_of_not_surrogate {c : Char} (h : isSurrogate (point c) = false) :
    point c = c.toNat ∧ isStandIn c.toNat = false := by
  cases hs : isStandIn c.toNat with
  | false => exact ⟨by rw [point, hs]; rfl, rfl⟩
  | true => cases (surrogate_of_standIn hs).symm.trans h

theorem standIn_point {c : Char} (h : isSurrogate (point c) = true) : standIn (point c) = c := by
  cases hs : isStandIn c.toNat with
  | false =>
    have hpoint : point c = c.toNat := by rw [point, hs]; rfl
    rw [hpoint] at h
    cases (not_surrogate c).symm.trans h
  | true => rw [standIn, Nat.add_comm, point_of_standIn hs, Char.ofNat_toNat]

theorem point_le (c : Char) : point c ≤ c.toNat := by
  unfold point
  split
  · exact Nat.sub_le _ _
  · exact Nat.le_refl _

theorem scalar_of_allPlain {s : String} (h : AllPlain s.toList) : Scalar s := by
  intro n hn
  rw [points_of_low h.low] at hn
  obtain ⟨c, -, rfl⟩ := List.mem_map.mp hn
  exact not_surrogate c

theorem pairPoint_add (high low : Nat) :
    pairPoint (0xD800 + high) (0xDC00 + low) = 0x10000 + high * 0x400 + low := by
  unfold pairPoint
  rw [Nat.add_sub_cancel_left, Nat.add_sub_cancel_left]

end Text

open Text

namespace Json

/-- No two neighbours in a text are halves that one character holds. -/
def Unpaired (cs : List Char) : Prop := cs.IsChain fun a b => arePair (point a) (point b) = false

instance (cs : List Char) : Decidable (Unpaired cs) :=
  inferInstanceAs (Decidable (cs.IsChain fun a b => arePair (point a) (point b) = false))

theorem arePair_of_not_high {high : Nat} (h : isHighSurrogate high = false) (low : Nat) :
    arePair high low = false := by
  simp [arePair, h]

theorem arePair_of_not_low {low : Nat} (h : isLowSurrogate low = false) (high : Nat) :
    arePair high low = false := by
  simp [arePair, h]

/-- A text without surrogates on their own has no halves to be taken together. -/
theorem unpaired_of_points {cs : List Char} (h : ∀ n ∈ points cs, isSurrogate n = false) :
    Unpaired cs := by
  induction cs using points.induct with
  | case1 a b rest n ht ih =>
    rw [points, ht, List.forall_mem_cons] at h
    have hrest := ih h.2
    -- Two characters that hold one of the block together are no pair for the reader.
    unfold together? at ht
    dsimp only at ht
    split at ht
    · rename_i hheld
      simp only [Bool.and_eq_true] at hheld
      have hb : isHighSurrogate (point b) = false := by
        have hlow := hheld.1.2
        simp only [isLowSurrogate, isHighSurrogate, Bool.and_eq_true, decide_eq_true_eq,
          Bool.and_eq_false_iff, decide_eq_false_iff_not] at *
        omega
      refine List.isChain_cons_cons.mpr ⟨by simp [arePair, hheld.2], ?_⟩
      cases rest with
      | nil => exact .singleton b
      | cons c rest => exact List.isChain_cons_cons.mpr ⟨arePair_of_not_high hb _, hrest⟩
    · cases ht
  | case2 a b rest ht ih =>
    rw [points, ht, List.forall_mem_cons] at h
    have ha : isHighSurrogate (point a) = false := by
      cases hhigh : isHighSurrogate (point a) with
      | false => rfl
      | true => cases (isSurrogate_of_high hhigh).symm.trans h.1
    exact List.isChain_cons_cons.mpr ⟨arePair_of_not_high ha _, ih h.2⟩
  | case3 a => exact .singleton a
  | case4 => exact .nil

theorem unpaired_of_scalar {s : String} (h : Scalar s) : Unpaired s.toList := unpaired_of_points h

/-! ## Escapes -/

theorem hexValue?_hexDigit {n : Nat} (h : n < 16) : hexValue? (hexDigit n) = some n := by
  have hall : ∀ n < 16, hexValue? (hexDigit n) = some n := by decide
  exact hall n h

theorem unitEscape_eq {n : Nat} (h : n < 0x10000) : ∃ a b c d,
    unitEscape n = ['\\', 'u', a, b, c, d] ∧ unit? a b c d = some n := by
  refine ⟨_, _, _, _, rfl, ?_⟩
  have hdigit : ∀ m, hexValue? (hexDigit (m % 16)) = some (m % 16) := fun m =>
    hexValue?_hexDigit (Nat.mod_lt m (by decide))
  have hvalue : ((n / 16 / 16 / 16 % 16 * 16 + n / 16 / 16 % 16) * 16 + n / 16 % 16) * 16 + n % 16 =
      n := by omega
  simp only [unit?, hdigit, Option.bind_eq_bind, Option.bind_some, Option.pure_def, hvalue]

theorem units_of_high {c : Char} {m : Nat} (h : point c = 0x10000 + m) :
    arePair (0xD800 + m / 0x400) (0xDC00 + m % 0x400) = true ∧
      Char.ofNat (pairPoint (0xD800 + m / 0x400) (0xDC00 + m % 0x400)) = c := by
  have hsurrogate : isSurrogate (point c) = false := by
    rw [h]
    simp only [isSurrogate, Bool.and_eq_false_iff, decide_eq_false_iff_not]
    omega
  obtain ⟨hpoint, hs⟩ := point_of_not_surrogate hsurrogate
  have hlt := toNat_lt c
  rw [← hpoint, h] at hlt
  have hpair : pairPoint (0xD800 + m / 0x400) (0xDC00 + m % 0x400) = c.toNat := by
    rw [pairPoint_add, ← hpoint, h, Nat.add_assoc, Nat.div_add_mod']
  rw [hpair]
  refine ⟨?_, Char.ofNat_toNat c⟩
  rw [arePair, hpair, hs]
  simp only [isHighSurrogate, isLowSurrogate, Bool.and_eq_true, decide_eq_true_eq, Bool.not_false,
    and_true]
  omega

theorem charOfUnit_point (c : Char) : charOfUnit (point c) = c := by
  cases hs : isSurrogate (point c) with
  | false => rw [charOfUnit, hs, (point_of_not_surrogate hs).1]; exact Char.ofNat_toNat c
  | true => rw [charOfUnit, hs]; exact standIn_point hs

section
variable {opening rest : List Char} (hrest : rest ≠ [])
include hrest

theorem pairWith?_unitEscape {low : Nat} (h : low < 0x10000) (high : Nat) :
    pairWith? high (unitEscape low ++ rest) = .ok
      (if arePair high low then some (Char.ofNat (pairPoint high low), rest) else none) := by
  obtain ⟨a, b, c, d, hescape, hunit⟩ := unitEscape_eq h
  obtain ⟨e, more, rfl⟩ := List.exists_cons_of_ne_nil hrest
  rw [hescape]
  simp only [List.cons_append, List.nil_append, pairWith?, hunit]
  split <;> rfl

theorem piece_unitEscape {n : Nat} (h : n < 0x10000)
    (hpair : isHighSurrogate n = true → pairWith? n rest = .ok none) :
    piece opening (unitEscape n ++ rest) = .ok (.char (charOfUnit n) rest) := by
  obtain ⟨a, b, c, d, hescape, hunit⟩ := unitEscape_eq h
  obtain ⟨e, more, rfl⟩ := List.exists_cons_of_ne_nil hrest
  rw [hescape]
  simp only [List.cons_append, List.nil_append, piece, unicodePiece, hunit]
  split
  · rename_i hhigh
    rw [hpair hhigh]
    rfl
  · rfl

theorem piece_pairEscape {high low : Nat} (hhigh : isHighSurrogate high = true)
    (hlow : low < 0x10000) (hp : arePair high low = true) :
    piece opening (unitEscape high ++ (unitEscape low ++ rest)) =
      .ok (.char (Char.ofNat (pairPoint high low)) rest) := by
  have hlt : high < 0x10000 := by
    simp only [isHighSurrogate, Bool.and_eq_true, decide_eq_true_eq] at hhigh
    omega
  obtain ⟨a, b, c, d, hescape, hunit⟩ := unitEscape_eq hlt
  have hpair := pairWith?_unitEscape hrest hlow high
  rw [if_pos hp] at hpair
  obtain ⟨a', b', c', d', hescape', -⟩ := unitEscape_eq hlow
  rw [hescape'] at hpair ⊢
  rw [hescape]
  simp only [List.cons_append, List.nil_append] at hpair ⊢
  simp only [piece, unicodePiece, hunit, hhigh, ite_true, hpair]
  rfl

/-! ## Characters -/

/-- What is printed for a character is no second half, unless the character is one. -/
theorem pairWith?_printedChar {high : Nat} {c : Char} (h : arePair high (point c) = false) :
    pairWith? high (printedChar c ++ rest) = .ok none := by
  unfold printedChar
  split_ifs with hq hb hn hr ht hf hbs hp
  all_goals first | rfl | skip
  · unfold pairWith?
    split
    · rename_i heq
      cases heq
      exact absurd rfl hb
    · rfl
  · unfold escapeUnits
    dsimp only
    split
    · rename_i hlt
      rw [pairWith?_unitEscape hrest hlt, h]
      rfl
    · rename_i hlt
      have hpoint := Nat.lt_of_le_of_lt (point_le c) (toNat_lt c)
      have hlow : isLowSurrogate (0xD800 + (point c - 0x10000) / 0x400) = false := by
        simp only [isLowSurrogate, Bool.and_eq_false_iff, decide_eq_false_iff_not]
        omega
      rw [List.append_assoc, pairWith?_unitEscape _ (by omega), arePair_of_not_low hlow]
      · rfl
      · simp [unitEscape]

theorem piece_printedChar {c : Char}
    (hpair : isHighSurrogate (point c) = true → pairWith? (point c) rest = .ok none) :
    piece opening (printedChar c ++ rest) = .ok (.char c rest) := by
  unfold printedChar
  split_ifs with hq hb hn hr ht hf hbs hp
  · rw [hq]; rfl
  · rw [hb]; rfl
  · rw [hn]; rfl
  · rw [hr]; rfl
  · rw [ht]; rfl
  · rw [hf]; rfl
  · rw [hbs]; rfl
  · show piece opening (c :: rest) = _
    unfold piece
    split
    all_goals rename_i heq
    · cases heq
    · cases heq; exact absurd rfl hq
    · cases heq; exact absurd rfl hb
    · cases heq; exact absurd rfl hb
    · cases heq; exact absurd rfl hb
    · cases heq
      rw [if_neg (by omega)]
  · unfold escapeUnits
    dsimp only
    split
    · rename_i hlt
      rw [piece_unitEscape hrest hlt hpair, charOfUnit_point]
    · rename_i hlt
      obtain ⟨hp, hc⟩ := units_of_high (Nat.add_sub_of_le (Nat.le_of_not_lt hlt)).symm
      have hhigh : isHighSurrogate (0xD800 + (point c - 0x10000) / 0x400) = true := by
        simp only [arePair, Bool.and_eq_true] at hp
        exact hp.1.1
      rw [List.append_assoc, piece_pairEscape hrest hhigh (by omega) hp, hc]

end

/-! ## Strings -/

def paired : List Char → List Char
  | a :: b :: rest =>
    if arePair (point a) (point b) then Char.ofNat (pairPoint (point a) (point b)) :: paired rest
    else a :: paired (b :: rest)
  | [a] => [a]
  | [] => []

theorem paired_eq_self {cs : List Char} (h : Unpaired cs) : paired cs = cs := by
  induction cs with
  | nil => rfl
  | cons a cs ih =>
    cases cs with
    | nil => rfl
    | cons b rest =>
      obtain ⟨hpair, hrest⟩ := List.isChain_cons_cons.mp h
      rw [paired, hpair, if_neg Bool.false_ne_true, ih hrest]

theorem printedChar_of_surrogate {c : Char} (h : isSurrogate (point c) = true) :
    printedChar c = unitEscape (point c) := by
  have hpoint : point c < 0x10000 := by
    simp only [isSurrogate, Bool.and_eq_true, decide_eq_true_eq] at h
    omega
  have hrange : 0x10D800 ≤ c.toNat := by
    cases hs : isStandIn c.toNat with
    | true =>
      simp only [isStandIn, Bool.and_eq_true, decide_eq_true_eq] at hs
      exact hs.1
    | false =>
      rw [point, hs, if_neg Bool.false_ne_true] at h
      cases (not_surrogate c).symm.trans h
  have hplain : ∀ d : Char, d.toNat < 0x80 → c ≠ d := by
    rintro d hd rfl
    omega
  unfold printedChar escapeUnits
  rw [if_neg (hplain _ (by decide)), if_neg (hplain _ (by decide)), if_neg (hplain _ (by decide)),
    if_neg (hplain _ (by decide)), if_neg (hplain _ (by decide)), if_neg (hplain _ (by decide)),
    if_neg (hplain _ (by decide)), if_neg (by omega)]
  dsimp only
  rw [if_pos hpoint]

theorem piece_printedPair {a b : Char} (h : arePair (point a) (point b) = true)
    (opening rest : List Char) (hrest : rest ≠ []) :
    piece opening (printedChar a ++ (printedChar b ++ rest)) =
      .ok (.char (Char.ofNat (pairPoint (point a) (point b))) rest) := by
  have hparts := h
  simp only [arePair, Bool.and_eq_true] at hparts
  have hlow : isSurrogate (point b) = true := by
    have hb := hparts.1.2
    simp only [isLowSurrogate, isSurrogate, Bool.and_eq_true, decide_eq_true_eq] at *
    omega
  have hlt : point b < 0x10000 := by
    simp only [isSurrogate, Bool.and_eq_true, decide_eq_true_eq] at hlow
    omega
  rw [printedChar_of_surrogate (isSurrogate_of_high hparts.1.1), printedChar_of_surrogate hlow]
  exact piece_pairEscape hrest hparts.1.1 hlt h

theorem stringRest_printed (cs : List Char) {opening rest : List Char} {fuel : Nat}
    (hf : cs.length < fuel) (done : List Char) :
    stringRest opening fuel done (cs.flatMap printedChar ++ '"' :: rest) =
      .ok (String.ofList (done.reverse ++ paired cs), rest) := by
  induction cs using paired.induct generalizing fuel done with
  | case1 a b more hpair ih =>
    obtain ⟨fuel, rfl⟩ := Nat.exists_eq_succ_of_ne_zero (Nat.ne_of_gt (Nat.zero_lt_of_lt hf))
    simp only [List.length_cons] at hf
    rw [List.flatMap_cons, List.flatMap_cons, List.append_assoc, List.append_assoc, stringRest,
      piece_printedPair hpair _ _ (by simp)]
    dsimp only
    rw [ih (by omega), paired, if_pos hpair]
    simp
  | case2 a b more hpair ih =>
    obtain ⟨fuel, rfl⟩ := Nat.exists_eq_succ_of_ne_zero (Nat.ne_of_gt (Nat.zero_lt_of_lt hf))
    -- The reader looks ahead past a first half, so the next character matters too.
    have hnext : pairWith? (point a) ((b :: more).flatMap printedChar ++ '"' :: rest) = .ok none := by
      rw [List.flatMap_cons, List.append_assoc]
      exact pairWith?_printedChar (by simp) (Bool.eq_false_iff.mpr hpair)
    rw [List.flatMap_cons, List.append_assoc, stringRest,
      piece_printedChar (by simp) fun _ => hnext]
    dsimp only
    rw [ih (Nat.lt_of_succ_lt_succ hf), paired, if_neg hpair]
    simp
  | case3 a =>
    obtain ⟨fuel, rfl⟩ := Nat.exists_eq_succ_of_ne_zero (Nat.ne_of_gt (Nat.zero_lt_of_lt hf))
    obtain ⟨fuel, rfl⟩ := Nat.exists_eq_succ_of_ne_zero
      (Nat.ne_of_gt (Nat.zero_lt_of_lt (Nat.lt_of_succ_lt_succ hf)))
    rw [List.flatMap_cons, List.append_assoc, stringRest, piece_printedChar (by simp) fun _ => rfl]
    simp [stringRest, piece, paired]
  | case4 =>
    obtain ⟨fuel, rfl⟩ := Nat.exists_eq_succ_of_ne_zero (Nat.ne_of_gt hf)
    simp [stringRest, piece, paired]

def TextReadsAs (s s' : String) : Prop :=
  ∀ (opening rest : List Char) (fuel : Nat), s.toList.length < fuel →
    stringRest opening fuel [] (s.toList.flatMap printedChar ++ '"' :: rest) = .ok (s', rest)

theorem textReadsAs_paired (s : String) : TextReadsAs s (String.ofList (paired s.toList)) := by
  intro opening rest fuel hf
  rw [stringRest_printed _ hf]
  rfl

theorem textReadsAs_self {s : String} (h : Unpaired s.toList) : TextReadsAs s s := by
  have hpaired := textReadsAs_paired s
  rwa [paired_eq_self h, String.ofList_toList] at hpaired

/-! ## Whole numbers -/

def digitCount (n : Int) : Nat := (Nat.toDigits 10 n.natAbs).length

/-- What may follow a value: the end of what it stands in, or of its line, or a comma. -/
def Stops (rest : List Char) : Prop := ∀ c ∈ rest.head?, c ∈ [',', ']', '}', '\n']

theorem stops_cons {c : Char} (h : c ∈ [',', ']', '}', '\n']) (rest : List Char) :
    Stops (c :: rest) := by
  intro d hd
  cases hd
  exact h

theorem ofDigits_concat (ds : List Nat) (d : Nat) :
    ofDigits (ds ++ [d]) = 10 * ofDigits ds + d := by
  rw [ofDigits, List.foldl_append]
  rfl

theorem ofDigits_digitsOf_toDigits (n : Nat) : ofDigits (digitsOf (Nat.toDigits 10 n)) = n := by
  have hdigit : ∀ d < 10, d.digitChar.toNat - '0'.toNat = d := by decide
  induction n using Nat.strong_induction_on with
  | h n ih =>
    rw [Nat.toDigits_eq_if (by decide)]
    split
    · rename_i hn
      simp only [digitsOf, List.map_cons, List.map_nil, ofDigits, List.foldl_cons, List.foldl_nil,
        hdigit n hn, Nat.mul_zero, Nat.zero_add]
    · rename_i hn
      have hlast := hdigit (n % 10) (Nat.mod_lt n (by decide))
      have hfirst := ih (n / 10) (Nat.div_lt_self (by omega) (by decide))
      rw [digitsOf, List.map_append, List.map_cons, List.map_nil, ofDigits_concat, hlast]
      rw [digitsOf] at hfirst
      rw [hfirst, Nat.div_add_mod]

theorem ofDigits_lt {ds : List Nat} (h : ∀ d ∈ ds, d < 10) : ofDigits ds < 10 ^ ds.length := by
  induction ds using List.reverseRecOn with
  | nil => decide
  | append_singleton ds d ih =>
    rw [List.forall_mem_append, List.forall_mem_singleton] at h
    have hds := ih h.1
    rw [ofDigits_concat, List.length_append, List.length_singleton, Nat.pow_succ]
    omega

theorem isAsciiDigit_of_mem_toDigits {n : Nat} : ∀ c ∈ Nat.toDigits 10 n, isAsciiDigit c = true := by
  intro c hc
  exact Nat.isDigit_of_mem_toDigits (by decide) (by decide) hc

theorem head_toDigits {n : Nat} (hn : 0 < n) : (Nat.toDigits 10 n).head? ≠ some '0' := by
  have hdigit : ∀ d < 10, 0 < d → d.digitChar ≠ '0' := by decide
  induction n using Nat.strong_induction_on with
  | h n ih =>
    rw [Nat.toDigits_eq_if (by decide)]
    split
    · rename_i hlt
      intro h
      exact hdigit n hlt hn (Option.some.inj h)
    · rename_i hlt
      have hfirst := ih (n / 10) (Nat.div_lt_self hn (by decide)) (by omega)
      rw [List.head?_append_of_ne_nil _ Nat.toDigits_ne_nil]
      exact hfirst

/-- Digits, with a zero in front only if it is the only one. -/
structure Whole (ds : List Char) : Prop where
  nonempty : ds ≠ []
  digits : ∀ c ∈ ds, isAsciiDigit c = true
  zero : ds.head? = some '0' → ds = ['0']

theorem whole_toDigits (n : Nat) : Whole (Nat.toDigits 10 n) where
  nonempty := Nat.toDigits_ne_nil
  digits := isAsciiDigit_of_mem_toDigits
  zero := by
    rcases Nat.eq_zero_or_pos n with rfl | hn
    · exact fun _ => Nat.toDigits_zero 10
    · exact fun h => absurd h (head_toDigits hn)

def NoDigit (rest : List Char) : Prop := ∀ c ∈ rest.head?, isAsciiDigit c = false

theorem noDigit_cons {c : Char} (hc : isAsciiDigit c = false) (rest : List Char) :
    NoDigit (c :: rest) := by
  intro d hd
  cases hd
  exact hc

section
variable {ds rest : List Char} (hds : ∀ c ∈ ds, isAsciiDigit c = true) (hrest : NoDigit rest)
include hds hrest

theorem takeWhile_digits : (ds ++ rest).takeWhile isAsciiDigit = ds := by
  rw [List.takeWhile_append_of_pos hds]
  cases rest with
  | nil => exact List.append_nil ds
  | cons c rest =>
    rw [List.takeWhile_cons, hrest c rfl]
    exact List.append_nil ds

theorem dropWhile_digits : (ds ++ rest).dropWhile isAsciiDigit = rest := by
  rw [List.dropWhile_append_of_pos hds]
  cases rest with
  | nil => rfl
  | cons c rest =>
    rw [List.dropWhile_cons, hrest c rfl]
    rfl

end

theorem Whole.wholePart? {ds rest : List Char} (hds : Whole ds) (hrest : NoDigit rest) :
    wholePart? (ds ++ rest) = some (ds, rest) := by
  have htake := takeWhile_digits hds.digits hrest
  have hdrop := dropWhile_digits hds.digits hrest
  cases ds with
  | nil => exact absurd rfl hds.nonempty
  | cons d ds =>
    rw [List.cons_append] at *
    unfold Json.wholePart?
    split
    · rename_i heq
      cases heq
      cases hds.zero rfl
      rfl
    · rename_i heq
      cases heq
      rw [if_pos (hds.digits d List.mem_cons_self), htake, hdrop]
    · rename_i heq
      cases heq

section
variable {rest : List Char} (hrest : Stops rest)
include hrest

theorem Stops.noDigit : NoDigit rest := by
  have hall : ∀ c ∈ [',', ']', '}', '\n'], isAsciiDigit c = false := by simp [isAsciiDigit]
  exact fun c hc => hall c (hrest c hc)

theorem Stops.fractionPart : fractionPart rest = (none, rest) := by
  unfold Json.fractionPart
  split
  · have hpoint : '.' ∉ [',', ']', '}', '\n'] := by decide
    exact absurd (hrest '.' rfl) hpoint
  · rfl

theorem Stops.exponentPart : exponentPart rest = (none, rest) := by
  unfold Json.exponentPart
  split
  · rename_i c rest
    have hc : ¬ (c = 'e' ∨ c = 'E') := by
      have hall : ∀ c ∈ [',', ']', '}', '\n'], ¬ (c = 'e' ∨ c = 'E') := by simp
      exact hall c (hrest c rfl)
    rw [if_neg hc]
  · rfl

theorem readNumber_toDigits (n : Nat) (start : List Char) (minus : Bool) :
    readNumber start minus (Nat.toDigits 10 n ++ rest) =
      if maxDigits < (Nat.toDigits 10 n).length then .error (.tooLong (Nat.toDigits 10 n).length)
      else .ok (int (if minus then -(n : Int) else n), rest) := by
  rw [readNumber, (whole_toDigits n).wholePart? hrest.noDigit]
  dsimp only
  rw [hrest.fractionPart]
  dsimp only
  rw [hrest.exponentPart]
  dsimp only
  rw [ofDigits_digitsOf_toDigits]

end

theorem digitCount_of_readNumber {start cs rest : List Char} {minus : Bool} {n : Int}
    (h : readNumber start minus cs = .ok (int n, rest)) : digitCount n ≤ maxDigits := by
  unfold readNumber at h
  split at h
  · cases h
  · rename_i whole rest' hwhole
    have hdigits : 0 < whole.length ∧ ∀ c ∈ whole, isAsciiDigit c = true := by
      unfold wholePart? at hwhole
      split at hwhole
      · cases hwhole
        exact ⟨Nat.one_pos, List.forall_mem_singleton.mpr rfl⟩
      · split at hwhole
        · rename_i c cs hc
          cases hwhole
          rw [List.takeWhile_cons, if_pos hc]
          exact ⟨Nat.succ_pos _, List.forall_mem_cons.mpr
            ⟨hc, List.all_eq_true.mp List.all_takeWhile⟩⟩
        · cases hwhole
      · cases hwhole
    dsimp only at h
    split at h
    · split at h
      · cases h
      · rename_i hlength
        cases h
        have hlt := @ofDigits_lt (digitsOf whole) (by
          intro d hd
          obtain ⟨c, hc, rfl⟩ := List.mem_map.mp hd
          have hc := hdigits.2 c hc
          simp only [isAsciiDigit, Bool.and_eq_true, decide_eq_true_eq, Char.le_def] at hc
          have h9 : c.toNat ≤ 57 := hc.2
          have h0 : '0'.toNat = 48 := rfl
          omega)
        rw [digitsOf, List.length_map] at hlt
        have hcount := (Nat.length_toDigits_le_iff (by decide) hdigits.1).mpr hlt
        have habs : ∀ n : Nat, (if minus then -(n : Int) else n).natAbs = n := by
          intro n
          split <;> omega
        rw [digitCount, habs]
        exact Nat.le_trans hcount (Nat.not_lt.mp hlength)
    · cases h

theorem toList_int (n : Int) : (toString n).toList =
    if 0 ≤ n then Nat.toDigits 10 n.natAbs else '-' :: Nat.toDigits 10 n.natAbs := by
  rw [Int.toString_eq_repr, Int.repr_eq_if]
  split
  · have h : n.toNat = n.natAbs := by omega
    rw [Nat.toList_repr, h]
  · have h : (-n).toNat = n.natAbs := by omega
    rw [String.toList_append, Nat.toList_repr, h]
    rfl

end Json

end BackendFuzz
