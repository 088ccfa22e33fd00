import BackendFuzz.Proofs.Call.Draws
import BackendFuzz.Proofs.Divergence.Origins
import BackendFuzz.Proofs.Json.Lexemes

/-!
# The words of a call

The words of a plan stand one after another, so each is cut out by its place. It
gives the value back, since no type is wider than a word and the values drawn for
a type are values of that type.
-/

namespace BackendFuzz

open Session

/-! ## Digits -/

def readDigits (digits : List Char) : Option Nat :=
  digits.foldlM (fun n c => (Json.hexValue? c).map (16 * n + ·)) 0

theorem length_hexDigits (width n : Nat) : (Text.hexDigits width n).length = width := by
  induction width generalizing n with
  | zero => rfl
  | succ width ih => rw [Text.hexDigits, List.length_append, ih, List.length_singleton]

theorem hexDigit_mem (n : Nat) : Text.hexDigit n ∈ "0123456789abcdef".toList := by
  rw [Text.hexDigit, List.getD_eq_getElem?_getD]
  cases h : "0123456789abcdef".toList[n]? with
  | none => decide
  | some c => exact List.mem_of_getElem? h

theorem mem_hexDigits {width n : Nat} {c : Char} (h : c ∈ Text.hexDigits width n) :
    c ∈ "0123456789abcdef".toList := by
  induction width generalizing n with
  | zero => cases h
  | succ width ih =>
    rcases List.mem_append.mp h with h | h
    · exact ih h
    · rw [List.mem_singleton.mp h]
      exact hexDigit_mem _

theorem readDigits_hexDigits (width n : Nat) :
    readDigits (Text.hexDigits width n) = some (n % 16 ^ width) := by
  induction width generalizing n with
  | zero => rw [Nat.pow_zero, Nat.mod_one]; rfl
  | succ width ih =>
    -- The last digit is the remainder by 16, and the digits before it are those of the quotient.
    have hdigit : Json.hexValue? (Text.hexDigit (n % 16)) = some (n % 16) :=
      Json.hexValue?_hexDigit (Nat.mod_lt n (by decide))
    rw [Text.hexDigits, readDigits, List.foldlM_append, ← readDigits, ih, Option.bind_eq_bind,
      Option.bind_some, List.foldlM_cons, hdigit]
    simp only [Option.map_some, Option.bind_eq_bind, Option.bind_some, List.foldlM_nil,
      Option.pure_def, Option.some.injEq]
    rw [Nat.pow_succ, Nat.mul_comm (16 ^ width), Nat.mod_mul, Nat.add_comm]

/-! ## Words -/

def wordAt (data : String) (index : Nat) : Option (BitVec wordBits) :=
  (readDigits ((data.toList.drop (64 * index)).take 64)).map (BitVec.ofNat wordBits)

theorem length_encodeWord (value : Int) : (encodeWord value).toList.length = 64 := by
  rw [encodeWord, String.toList_ofList, length_hexDigits]

theorem readDigits_encodeWord (value : Int) :
    (readDigits (encodeWord value).toList).map (BitVec.ofNat wordBits) =
      some (BitVec.ofInt wordBits value) := by
  rw [encodeWord, String.toList_ofList, readDigits_hexDigits, Option.map_some, Option.some.injEq]
  apply BitVec.eq_of_toNat_eq
  have hword : (16 : Nat) ^ 64 = 2 ^ wordBits := by decide
  rw [BitVec.toNat_ofNat, BitVec.toNat_ofInt, hword, Nat.mod_mod]
  apply Nat.mod_eq_of_lt
  have hpos : (0 : Int) < (2 ^ wordBits : Nat) := by decide
  have hlow := Int.emod_nonneg value (ne_of_gt hpos)
  have hhigh := Int.emod_lt_of_pos value hpos
  omega

theorem block_flatMap {α β : Type} {f : α → List β} {n : Nat} (hf : ∀ a, (f a).length = n)
    {l : List α} {i : Nat} {a : α} (h : l[i]? = some a) :
    ((l.flatMap f).drop (n * i)).take n = f a := by
  induction l generalizing i with
  | nil => cases h
  | cons a' l ih =>
    rw [List.flatMap_cons]
    cases i with
    | zero => cases h; rw [Nat.mul_zero, List.drop_zero, List.take_left' (hf a)]
    | succ i =>
      rw [Nat.mul_succ, Nat.add_comm, ← List.drop_drop, List.drop_left' (hf a')]
      exact ih h

theorem wordAt_join {values : List Int} {i : Nat} {value : Int} (h : values[i]? = some value) :
    wordAt (String.join (values.map encodeWord)) i = some (BitVec.ofInt wordBits value) := by
  rw [wordAt, String.toList_join, List.flatMap_map,
    block_flatMap (fun v => length_encodeWord v) h, readDigits_encodeWord]

theorem length_join_encodeWord (values : List Int) :
    (String.join (values.map encodeWord)).toList.length = 64 * values.length := by
  rw [String.toList_join, List.flatMap_map]
  induction values with
  | nil => rfl
  | cons v values ih =>
    rw [List.flatMap_cons, List.length_append, ih, length_encodeWord, List.length_cons]
    omega

theorem mem_join_encodeWord {values : List Int} {c : Char}
    (h : c ∈ (String.join (values.map encodeWord)).toList) : c ∈ "0123456789abcdef".toList := by
  rw [String.toList_join, List.flatMap_map] at h
  obtain ⟨v, -, hc⟩ := List.mem_flatMap.mp h
  rw [encodeWord, String.toList_ofList] at hc
  exact mem_hexDigits hc

/-! ## Values of a type -/

namespace IntegerType

def values (t : IntegerType) : Set Int :=
  if t.signed then Set.Ico (-2 ^ (t.bits - 1)) (2 ^ (t.bits - 1)) else Set.Ico 0 (2 ^ t.bits)

/-- What a word says as a value of the type: two's complement, or the bits alone. -/
def ofWord (t : IntegerType) (word : BitVec wordBits) : Int :=
  if t.signed then word.toInt else word.toNat

theorem ofWord_ofInt {t : IntegerType} (hbits : t.bits ≤ wordBits) {value : Int}
    (h : value ∈ t.values) : t.ofWord (BitVec.ofInt wordBits value) = value := by
  obtain ⟨signed, bits⟩ := t
  cases signed with
  | true =>
    obtain ⟨hlow, hhigh⟩ : -2 ^ (bits - 1) ≤ value ∧ value < 2 ^ (bits - 1) := h
    have hpow : (2 : Int) ^ (bits - 1) ≤ 2 ^ (wordBits - 1) :=
      pow_le_pow_right₀ (by decide) (Nat.sub_le_sub_right hbits 1)
    exact BitVec.toInt_ofInt_eq_self (by decide) (le_trans (neg_le_neg hpow) hlow)
      (lt_of_lt_of_le hhigh hpow)
  | false =>
    obtain ⟨hlow, hhigh⟩ : 0 ≤ value ∧ value < 2 ^ bits := h
    have hpow : (2 : Int) ^ bits ≤ 2 ^ wordBits := pow_le_pow_right₀ (by decide) hbits
    have hword : ((2 ^ wordBits : Nat) : Int) = 2 ^ wordBits := by decide
    change ((BitVec.ofInt wordBits value).toNat : Int) = value
    rw [BitVec.toNat_ofInt, hword, Int.emod_eq_of_lt hlow (lt_of_lt_of_le hhigh hpow),
      Int.toNat_of_nonneg hlow]

end IntegerType

/-! ## Plans -/

theorem readWidth_bits {signed : Bool} {cs : List Char} {t : IntegerType}
    (h : readWidth signed cs = .type t) : t.bits ≤ wordBits := by
  unfold readWidth at h
  split at h
  · cases h
  · split at h
    · cases h
    · rename_i ds _ _
      generalize (if ds.isEmpty = true then 256 else ofDigits ds) = bits at h
      dsimp only at h
      split at h
      · rename_i hbits
        cases h
        exact hbits.2.2
      · cases h

theorem readType_bits {cs : List Char} {t : IntegerType} (h : readType cs = .type t) :
    t.bits ≤ wordBits := by
  unfold readType at h
  split at h
  · exact readWidth_bits h
  · exact readWidth_bits h
  · cases h

theorem resolveType_bits {parameter : Json} {t : IntegerType}
    (h : resolveType parameter = .ok t) : t.bits ≤ wordBits := by
  obtain ⟨text, -, h⟩ := bind_ok_inv h
  split at h
  · split at h
    · rename_i htype
      cases h
      exact readType_bits htype
    · cases h
    · obtain ⟨name, -, h⟩ := bind_ok_inv h
      cases h
  · cases h

namespace Planner

theorem parameterTypes_bits {p : Planner} {tree : SyntaxTree} {types : List IntegerType}
    (h : p.parameterTypes tree = .ok types) : ∀ t ∈ types, t.bits ≤ wordBits := by
  intro t ht
  obtain ⟨function, -, h⟩ := bind_ok_inv h
  obtain ⟨declared, -, h⟩ := bind_ok_inv h
  obtain ⟨parameter, -, hresolve⟩ := mem_of_mapM_ok h ht
  exact resolveType_bits hresolve

end Planner

def Outside.DrawsBits (o : Outside) : Prop :=
  ∀ asked count, o.callBits asked count ∈ Set.Ico (0 : Int) (2 ^ count)

section
variable {o : Outside}

theorem run_drawInteger (ho : o.DrawsBits) (t : IntegerType) (b : Bench) :
    ∃ value b', (drawInteger t).run o b = (.ok value, b') ∧ value ∈ t.values := by
  obtain ⟨signed, bits⟩ := t
  cases signed with
  | true =>
    have hsign : Set.Ico (0 : Int) (2 ^ 1) ⊆ {0, 1} := by
      rintro sign ⟨hzero, htwo⟩
      rw [pow_one] at htwo
      change sign = 0 ∨ sign = 1
      omega
    exact ⟨_, _, run_drawInteger_signed bits o b,
      signedValue_mapsTo (Set.mk_mem_prod (ho b.asked (bits - 1)) (hsign (ho _ 1)))⟩
  | false => exact ⟨_, _, run_drawInteger_unsigned bits o b, ho b.asked bits⟩

theorem run_mapM_drawInteger (ho : o.DrawsBits) (types : List IntegerType) (b : Bench) :
    ∃ values b', (types.mapM drawInteger).run o b = (.ok values, b') ∧
      List.Forall₂ (fun t value => value ∈ t.values) types values := by
  induction types generalizing b with
  | nil => exact ⟨[], b, rfl, .nil⟩
  | cons t types ih =>
    obtain ⟨value, b₁, hdraw, hvalue⟩ := run_drawInteger ho t b
    obtain ⟨values, b₂, hdraws, hvalues⟩ := ih b₁
    refine ⟨value :: values, b₂, ?_, .cons hvalue hvalues⟩
    rw [List.mapM_cons, run_bind_ok hdraw, run_bind_ok hdraws, run_pure]

/-- A plan for a function of integer parameters: its data are as many words as the function has
parameters, in lower-case hexadecimal, and each word read by the type of its parameter is the value
that was drawn, one of the values of the type. -/
theorem planned_words_give_values (ho : o.DrawsBits) {p : Planner} {tree : SyntaxTree}
    {types : List IntegerType} (htypes : p.parameterTypes tree = .ok types) (b : Bench) :
    ∃ plan b', (p.plan tree).run o b = (.ok plan, b') ∧
      plan.types = types.map IntegerType.canonical ∧
      plan.values.length = types.length ∧
      plan.encoded.toList.length = 64 * types.length ∧
      (∀ c ∈ plan.encoded.toList, c ∈ "0123456789abcdef".toList) ∧
      ∀ i t, types[i]? = some t → ∃ value, plan.values[i]? = some value ∧ value ∈ t.values ∧
        (wordAt plan.encoded i).map t.ofWord = some value := by
  obtain ⟨values, b', hdraws, hvalues⟩ := run_mapM_drawInteger ho types b
  have hlength := hvalues.length_eq
  obtain ⟨plan, b'', hplan, htype, hvalue, hencoded⟩ : ∃ plan b'', (p.plan tree).run o b =
      (.ok plan, b'') ∧ plan.types = types.map IntegerType.canonical ∧ plan.values = values ∧
        plan.encoded = String.join (values.map encodeWord) := by
    unfold Planner.plan
    rw [htypes, run_bind_ok (run_ofExcept o b _), run_bind_ok hdraws]
    exact ⟨_, _, rfl, rfl, rfl, rfl⟩
  refine ⟨plan, b'', hplan, htype, by rw [hvalue, hlength], ?_, ?_, ?_⟩
  · rw [hencoded, length_join_encodeWord, hlength]
  · intro c hc
    rw [hencoded] at hc
    exact mem_join_encodeWord hc
  · intro i t ht
    obtain ⟨hi, rfl⟩ := List.getElem?_eq_some_iff.mp ht
    have hi' : i < values.length := hlength ▸ hi
    have hmem : values[i] ∈ types[i].values := hvalues.get hi hi'
    have hget : values[i]? = some values[i] := List.getElem?_eq_getElem hi'
    refine ⟨values[i], by rw [hvalue, hget], hmem, ?_⟩
    rw [hencoded, wordAt_join hget, Option.map_some,
      IntegerType.ofWord_ofInt (Planner.parameterTypes_bits htypes _ (List.getElem_mem hi)) hmem]

end

/-! ## Two parameters -/

namespace Sample

def parameter (type : String) : Json :=
  .object [("typeDescriptions", .object [("typeString", .text type)])]

def pairFunction : Json :=
  .object [("nodeType", .text "FunctionDefinition"), ("name", .text "f"),
    ("parameters", .object [("parameters", .array [parameter "int8", parameter "uint256"])])]

def pairTree : SyntaxTree where
  unit := .object [("nodes", .array [
    .object [("nodeType", .text "ContractDefinition"), ("name", .text "C"),
      ("nodes", .array [pairFunction])]])]
  fileName := "c.sol"

def onesDrawn : Outside :=
  { Outside.alone ⟨2024, 1, 1, 0, 0, 0, 0⟩ with callBits := fun _ count => 2 ^ count - 1 }

theorem onesDrawn_drawsBits : onesDrawn.DrawsBits := by
  intro asked count
  have hpow : (0 : Int) < 2 ^ count := Int.pow_pos (by decide)
  change (0 : Int) ≤ 2 ^ count - 1 ∧ (2 : Int) ^ count - 1 < 2 ^ count
  omega

theorem parameterTypes_pairTree :
    (Planner.mk "f" "a").parameterTypes pairTree = .ok [⟨true, 8⟩, ⟨false, 256⟩] := rfl

end Sample

theorem planned_words_give_values_pair :
    Sample.onesDrawn.DrawsBits ∧
    (Planner.mk "f" "a").parameterTypes Sample.pairTree = .ok [⟨true, 8⟩, ⟨false, 256⟩] ∧
    ∃ plan b',
      ((Planner.mk "f" "a").plan Sample.pairTree).run Sample.onesDrawn {} = (.ok plan, b') ∧
      plan.types = ["int8", "uint256"] ∧ plan.encoded.toList.length = 128 ∧
      (∃ value, plan.values[0]? = some value ∧ value ∈ IntegerType.values ⟨true, 8⟩ ∧
        (wordAt plan.encoded 0).map (IntegerType.ofWord ⟨true, 8⟩) = some value) ∧
      ∃ value, plan.values[1]? = some value ∧ value ∈ IntegerType.values ⟨false, 256⟩ ∧
        (wordAt plan.encoded 1).map (IntegerType.ofWord ⟨false, 256⟩) = some value := by
  refine ⟨Sample.onesDrawn_drawsBits, Sample.parameterTypes_pairTree, ?_⟩
  obtain ⟨plan, b', hplan, htypes, -, hlength, -, hwords⟩ :=
    planned_words_give_values Sample.onesDrawn_drawsBits Sample.parameterTypes_pairTree {}
  exact ⟨plan, b', hplan, htypes, hlength, hwords 0 _ rfl, hwords 1 _ rfl⟩

end BackendFuzz
