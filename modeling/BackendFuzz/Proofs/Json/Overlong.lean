import BackendFuzz.Proofs.Json.Roundtrip

/-!
# Texts with a number that is too long

Reading stops at a whole number of too many digits. What is wrong with the text
behind the number is not looked at, and whether it is JSON does not matter.
-/

namespace BackendFuzz

open Text

namespace Json

/-! ## Refusals inside others -/

section
variable {room fuel : Nat} {c : Char} {cs : List Char} {cause : Refusal}

theorem readItems_refused (h : readValue room fuel cs = .error cause) :
    readItems room (fuel + 1) cs = .error cause := by
  rw [readItems, h, error_bind]

theorem readFields_refused {n : String} (hn : Scalar n) (hlength : n.toList.length < fuel)
    (hc : isJsonBlank c = false) (h : readValue room fuel (c :: cs) = .error cause) :
    readFields room (fuel + 1) (printedText n.toList ++ ": ".toList ++ c :: cs) = .error cause := by
  rw [readFields_name (textReadsAs_self (unpaired_of_scalar hn)) hlength hc, h, error_bind]

theorem readValue_array_refused (hc : isJsonBlank c = false) (hclose : c ≠ ']')
    (h : readItems room fuel (c :: cs) = .error cause) :
    readValue (room + 1) (fuel + 1) ('[' :: c :: cs) = .error cause := by
  rw [readValue, inside, ok_bind, skipBlanks_cons hc]
  split
  · rename_i heq
    cases heq
    exact absurd rfl hclose
  · rw [h, error_bind]

theorem readValue_object_refused (h : readFields room fuel ('"' :: cs) = .error cause) :
    readValue (room + 1) (fuel + 1) ('{' :: '"' :: cs) = .error cause := by
  rw [readValue, inside, ok_bind, skipBlanks_cons (by decide)]
  show (readFields room fuel ('"' :: cs) >>= fun read =>
    pure (object (Fields.ofMentions read.1), read.2)) = _
  rw [h, error_bind]

end

theorem parse_tooLong {s : String} {c : Char} {cs : List Char} {count : Nat}
    (hs : s.toList = c :: cs) (hmark : c ≠ '\uFEFF') (hc : isJsonBlank c = false)
    (h : ∀ fuel, cs.length ≤ fuel →
      readValue maxDepth (fuel + 4) (c :: cs) = .error (.tooLong count)) :
    parse s = .error (.tooLong count) := by
  have hfuel : 2 * (c :: cs).length + 2 = 2 * cs.length + 4 := by rw [List.length_cons]; omega
  have hread : readText maxDepth (c :: cs) = .error (.tooLong count) := by
    unfold readText
    split
    · rename_i heq
      cases heq
      exact absurd rfl hmark
    · rw [skipBlanks_cons hc, hfuel, h _ (by omega)]
  rw [parse, parseWithin, hs, hread]
  rfl

/-! ## Numbers that are too long -/

theorem digitCount_pow (k : Nat) : digitCount (10 ^ k) = k + 1 := by
  have hle : ∀ m, 0 < m → (digitCount (10 ^ k) ≤ m ↔ 10 ^ k < 10 ^ m) := by
    intro m hm
    rw [digitCount, Nat.length_toDigits_le_iff (by decide) hm, Int.natAbs_pow]
    rfl
  have hupper := (hle (k + 1) (Nat.succ_pos k)).mpr (Nat.pow_lt_pow_succ (by decide))
  rcases Nat.eq_zero_or_pos k with rfl | hk
  · rfl
  · have hlower : ¬ digitCount (10 ^ k) ≤ k := mt (hle k hk).mp (Nat.lt_irrefl _)
    omega

def overlong : Int := 10 ^ maxDigits

theorem digitCount_overlong : digitCount overlong = maxDigits + 1 := digitCount_pow maxDigits

theorem maxDigits_lt_overlong : maxDigits < digitCount overlong := by
  rw [digitCount_overlong]
  exact Nat.lt_succ_self maxDigits

section
variable {n : Int} (hn : maxDigits < digitCount n)
include hn

/-- An array that is broken off behind the number. -/
theorem parse_overlong_item :
    parse (String.ofList ('[' :: (int n).printed)) = .error (.tooLong (digitCount n)) := by
  obtain ⟨c, cs, hprinted, hc, hclose⟩ := printed_head (int n)
  have hnumber : ∀ fuel, readValue 984 (fuel + 1) (c :: cs) = .error (.tooLong (digitCount n)) := by
    intro fuel
    have h := @readValue_int 984 fuel [] n (by simp [Stops])
    rwa [List.append_nil, hprinted, if_pos hn] at h
  refine parse_tooLong String.toList_ofList (by decide) (by decide) fun fuel _ => ?_
  rw [hprinted]
  exact readValue_array_refused hc hclose (readItems_refused (hnumber _))

/-- The text of an object that lies in an array and has the number in a field. -/
theorem parse_overlong_field {name : String} (hname : Scalar name) :
    parse (array [object [(name, int n)]]).print = .error (.tooLong (digitCount n)) := by
  obtain ⟨c, cs, hprinted, hc, -⟩ := printed_head (int n)
  have hlist : (array [object [(name, int n)]]).print.toList =
      '[' :: '{' :: (printedText name.toList ++ ": ".toList ++ (int n).printed ++ "\x7d]".toList) := by
    simp [print, printed, printedItems, printedFields]
  have hnumber : ∀ fuel, readValue 983 (fuel + 1) (c :: (cs ++ "\x7d]".toList)) =
      .error (.tooLong (digitCount n)) := by
    intro fuel
    have h := @readValue_int 983 fuel "\x7d]".toList n (stops_cons (by decide) _)
    rwa [hprinted, List.cons_append, if_pos hn] at h
  refine parse_tooLong hlist (by decide) (by decide) fun fuel hfuel => ?_
  have hlength := length_printedText name.toList
  simp only [List.length_cons, List.length_append] at hfuel
  obtain ⟨fuel, rfl⟩ := Nat.exists_eq_succ_of_ne_zero (by omega : fuel ≠ 0)
  have hfields := readFields_refused hname (by omega) hc (hnumber fuel)
  rw [printedText, List.append_assoc, List.cons_append, List.cons_append] at hfields
  rw [hprinted]
  refine readValue_array_refused (by decide) (by decide) (readItems_refused ?_)
  rw [List.append_assoc, List.cons_append, printedText, List.append_assoc, List.cons_append,
    List.cons_append]
  exact readValue_object_refused hfields

end

end Json

end BackendFuzz
