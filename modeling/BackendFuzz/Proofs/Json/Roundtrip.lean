import BackendFuzz.Proofs.Json.Reals
import BackendFuzz.Proofs.Session.Run

/-!
# Reading back what is printed

A value is read back from its text if its texts are Unicode, its real numbers are
ones that rounding gives, its whole numbers are no longer than is read, its
objects name no field twice, and it is not nested deeper than there is room for.
-/

namespace BackendFuzz

open Text

/-! ## Fields by mention -/

namespace Fields

theorem put_of_not_mem {fields : Fields} {name : String} (h : name ∉ fields.map (·.1)) (v : Json) :
    fields.put name v = fields ++ [(name, v)] := by
  induction fields with
  | nil => rfl
  | cons f fields ih =>
    obtain ⟨n, w⟩ := f
    rw [List.map_cons, List.mem_cons, not_or] at h
    rw [put, if_neg (Ne.symm h.1), ih h.2]
    rfl

theorem mem_names_put (fields : Fields) (name : String) (v : Json) {n : String} :
    n ∈ (fields.put name v).map (·.1) ↔ n ∈ fields.map (·.1) ∨ n = name := by
  induction fields with
  | nil => simp [put]
  | cons f fields ih =>
    obtain ⟨m, w⟩ := f
    rw [put]
    split
    · rename_i h
      subst h
      simp only [List.map_cons, List.mem_cons]
      tauto
    · rw [List.map_cons, List.mem_cons, ih, List.map_cons, List.mem_cons, or_assoc]

theorem nodup_put {fields : Fields} (h : (fields.map (·.1)).Nodup) (name : String) (v : Json) :
    ((fields.put name v).map (·.1)).Nodup := by
  induction fields with
  | nil => simp [put]
  | cons f fields ih =>
    obtain ⟨m, w⟩ := f
    rw [List.map_cons, List.nodup_cons] at h
    rw [put]
    split
    · exact List.nodup_cons.mpr h
    · rename_i hm
      rw [List.map_cons, List.nodup_cons, mem_names_put, not_or]
      exact ⟨⟨h.1, hm⟩, ih h.2⟩

theorem of_mem_put {fields : Fields} {name : String} {v : Json} {f : String × Json}
    (h : f ∈ fields.put name v) : f ∈ fields ∨ f.2 = v := by
  induction fields with
  | nil =>
    cases List.mem_singleton.mp h
    exact Or.inr rfl
  | cons g fields ih =>
    obtain ⟨m, w⟩ := g
    rw [put] at h
    split at h
    · rcases List.mem_cons.mp h with rfl | h
      · exact Or.inr rfl
      · exact Or.inl (List.mem_cons_of_mem _ h)
    · rcases List.mem_cons.mp h with rfl | h
      · exact Or.inl List.mem_cons_self
      · exact (ih h).imp_left (List.mem_cons_of_mem _)

theorem nodup_ofMentions (mentions : List (String × Json)) :
    ((ofMentions mentions).map (·.1)).Nodup := by
  have h : ∀ (fields : Fields), (fields.map (·.1)).Nodup →
      ((mentions.foldl (fun fields m => fields.put m.1 m.2) fields).map (·.1)).Nodup := by
    induction mentions with
    | nil => exact fun _ h => h
    | cons m mentions ih => exact fun fields h => ih _ (nodup_put h m.1 m.2)
  exact h [] List.nodup_nil

theorem forall_ofMentions {P : Json → Prop} {mentions : List (String × Json)}
    (h : ∀ m ∈ mentions, P m.2) : ∀ f ∈ ofMentions mentions, P f.2 := by
  have hfold : ∀ (fields : Fields), (∀ f ∈ fields, P f.2) →
      ∀ f ∈ mentions.foldl (fun fields m => fields.put m.1 m.2) fields, P f.2 := by
    induction mentions with
    | nil => exact fun _ h => h
    | cons m mentions ih =>
      rw [List.forall_mem_cons] at h
      refine fun fields hfields => ih h.2 _ fun f hf => ?_
      rcases of_mem_put hf with hf | hf
      · exact hfields f hf
      · rw [hf]
        exact h.1
  exact hfold [] (List.forall_mem_nil _)

theorem ofMentions_eq {fields : Fields} (h : (fields.map (·.1)).Nodup) :
    ofMentions fields = fields := by
  have hfold : ∀ done : Fields, ((done ++ fields).map (·.1)).Nodup →
      fields.foldl (fun fields m => put fields m.1 m.2) done = done ++ fields := by
    clear h
    induction fields with
    | nil => exact fun done _ => (List.append_nil done).symm
    | cons f fields ih =>
      intro done hdone
      have hf : f.1 ∉ done.map (·.1) := by
        rw [List.map_append, List.map_cons] at hdone
        exact fun hmem => (List.nodup_append.mp hdone).2.2 _ hmem _ List.mem_cons_self rfl
      have happend : done ++ f :: fields = done ++ [f] ++ fields := by simp
      rw [happend] at hdone ⊢
      rw [List.foldl_cons, put_of_not_mem hf]
      exact ih _ hdone
  exact hfold [] h

end Fields

namespace Json

/-! ## Values that were read -/

/-- A value that can be read with some room for arrays and objects inside each other. -/
inductive Fits : Nat → Json → Prop
  | null {room : Nat} : Fits room null
  | bool {room : Nat} {b : Bool} : Fits room (bool b)
  | int {room : Nat} {n : Int} (h : digitCount n ≤ maxDigits) : Fits room (int n)
  | real {room : Nat} {x : Binary64} : Fits room (real x)
  | text {room : Nat} {s : String} : Fits room (text s)
  | array {room : Nat} {items : List Json} (h : ∀ x ∈ items, Fits room x) :
    Fits (room + 1) (array items)
  | object {room : Nat} {fields : Fields} (hnames : (fields.map (·.1)).Nodup)
    (h : ∀ f ∈ fields, Fits room f.2) : Fits (room + 1) (object fields)

theorem Fits.mono {room room' : Nat} {v : Json} (h : Fits room v) (hle : room ≤ room') :
    Fits room' v := by
  induction h generalizing room' with
  | null => exact .null
  | bool => exact .bool
  | int h => exact .int h
  | real => exact .real
  | text => exact .text
  | array h ih =>
    obtain ⟨room', rfl⟩ := Nat.exists_eq_succ_of_ne_zero (Nat.ne_of_gt (Nat.zero_lt_of_lt hle))
    exact .array fun x hx => ih x hx (Nat.le_of_succ_le_succ hle)
  | object hnames h ih =>
    obtain ⟨room', rfl⟩ := Nat.exists_eq_succ_of_ne_zero (Nat.ne_of_gt (Nat.zero_lt_of_lt hle))
    exact .object hnames fun f hf => ih f hf (Nat.le_of_succ_le_succ hle)

theorem fits_texts (room : Nat) (ss : List String) : Fits (room + 1) (texts ss) := by
  refine .array fun x hx => ?_
  obtain ⟨s, -, rfl⟩ := List.mem_map.mp hx
  exact .text

theorem inside_inv {nest : Nest} {room room' : Nat} (h : inside nest room = .ok room') :
    room = room' + 1 := by
  cases room with
  | zero => cases h
  | succ room => cases h; rfl

theorem fits_readNumber {room : Nat} {start cs rest : List Char} {minus : Bool} {v : Json}
    (h : readNumber start minus cs = .ok (v, rest)) : v.Fits room := by
  cases v with
  | int n => exact .int (digitCount_of_readNumber h)
  | real x => exact .real
  | _ =>
    unfold readNumber at h
    split at h
    · cases h
    · dsimp only at h
      split at h
      · split at h <;> cases h
      · cases h

theorem fits_read (fuel : Nat) :
    (∀ room cs v rest, readValue room fuel cs = .ok (v, rest) → v.Fits room) ∧
    (∀ room cs vs rest, readItems room fuel cs = .ok (vs, rest) → ∀ v ∈ vs, v.Fits room) ∧
    ∀ room cs ms rest, readFields room fuel cs = .ok (ms, rest) → ∀ m ∈ ms, m.2.Fits room := by
  -- All three readers at once, by induction on the fuel that they share.
  induction fuel with
  | zero =>
    refine ⟨fun _ _ _ _ h => ?_, fun _ _ _ _ h => ?_, fun _ _ _ _ h => ?_⟩
    all_goals cases h
  | succ fuel ih =>
    obtain ⟨ihValue, ihItems, ihFields⟩ := ih
    refine ⟨fun room cs v rest h => ?_, fun room cs vs rest h => ?_, fun room cs ms rest h => ?_⟩
    · unfold readValue at h
      split at h
      · obtain ⟨⟨s, rest'⟩, -, h⟩ := bind_ok_inv h
        cases h
        exact .text
      · obtain ⟨room', hroom, hrest⟩ := bind_ok_inv h
        clear h
        cases inside_inv hroom
        split at hrest
        · cases hrest
          exact .object List.nodup_nil (List.forall_mem_nil _)
        · obtain ⟨⟨mentions, rest'⟩, hfields, h⟩ := bind_ok_inv hrest
          cases h
          exact .object (Fields.nodup_ofMentions _)
            (Fields.forall_ofMentions (ihFields _ _ _ _ hfields))
      · obtain ⟨room', hroom, hrest⟩ := bind_ok_inv h
        clear h
        cases inside_inv hroom
        split at hrest
        · cases hrest
          exact .array (List.forall_mem_nil _)
        · obtain ⟨⟨items, rest'⟩, hitems, h⟩ := bind_ok_inv hrest
          cases h
          exact .array (ihItems _ _ _ _ hitems)
      · cases h; exact .null
      · cases h; exact .bool
      · cases h; exact .bool
      · cases h; exact .real
      · cases h; exact .real
      · cases h; exact .real
      · exact fits_readNumber h
      · exact fits_readNumber h
    · unfold readItems at h
      obtain ⟨⟨v, rest'⟩, hv, h⟩ := bind_ok_inv h
      have hfits := ihValue _ _ _ _ hv
      dsimp only at h
      split at h
      · cases h
        exact List.forall_mem_singleton.mpr hfits
      · obtain ⟨⟨vs', rest''⟩, hvs, h⟩ := bind_ok_inv h
        cases h
        exact List.forall_mem_cons.mpr ⟨hfits, ihItems _ _ _ _ hvs⟩
      · cases h
    · unfold readFields at h
      split at h
      · obtain ⟨⟨name, rest'⟩, -, h⟩ := bind_ok_inv h
        dsimp only at h
        split at h
        · obtain ⟨⟨v, rest''⟩, hv, h⟩ := bind_ok_inv h
          have hfits := ihValue _ _ _ _ hv
          dsimp only at h
          split at h
          · cases h
            exact List.forall_mem_singleton.mpr hfits
          · obtain ⟨⟨ms', rest''⟩, hms, h⟩ := bind_ok_inv h
            cases h
            exact List.forall_mem_cons.mpr ⟨hfits, ihFields _ _ _ _ hms⟩
          · cases h
        · cases h
      · cases h

theorem fits_parse {s : String} {v : Json} (h : parse s = .ok v) : v.Fits maxDepth := by
  unfold parse parseWithin at h
  cases hread : readText maxDepth s.toList with
  | error refusal => rw [hread] at h; cases h
  | ok v' =>
    rw [hread] at h
    cases h
    unfold readText at hread
    split at hread
    · cases hread
    · split at hread
      · cases hread
      · rename_i hvalue
        split at hread
        · cases hread
          exact (fits_read _).1 _ _ _ _ hvalue
        · cases hread

/-! ## Values whose text tells all -/

/-- Every text is Unicode, and every number is whole. -/
inductive Exact : Json → Prop
  | null : Exact null
  | bool {b : Bool} : Exact (bool b)
  | int {n : Int} : Exact (int n)
  | text {s : String} (h : Scalar s) : Exact (text s)
  | array {items : List Json} (h : ∀ x ∈ items, Exact x) : Exact (array items)
  | object {fields : Fields} (hnames : ∀ f ∈ fields, Scalar f.1) (h : ∀ f ∈ fields, Exact f.2) :
    Exact (object fields)

/-- No number in it is real, and no text has two neighbours that are read as one character. -/
inductive Legible : Json → Prop
  | null : Legible null
  | bool {b : Bool} : Legible (bool b)
  | int {n : Int} : Legible (int n)
  | text {s : String} (h : Unpaired s.toList) : Legible (text s)
  | array {items : List Json} (h : ∀ x ∈ items, Legible x) : Legible (array items)
  | object {fields : Fields} (hnames : ∀ f ∈ fields, Unpaired f.1.toList)
    (h : ∀ f ∈ fields, Legible f.2) : Legible (object fields)

/-- Rounding gives every real number, and no name has two neighbours that are read as one. -/
inductive Canonical : Json → Prop
  | null : Canonical null
  | bool {b : Bool} : Canonical (bool b)
  | int {n : Int} : Canonical (int n)
  | real {x : Binary64} (h : x.Canonical) : Canonical (real x)
  | text {s : String} : Canonical (text s)
  | array {items : List Json} (h : ∀ x ∈ items, Canonical x) : Canonical (array items)
  | object {fields : Fields} (hnames : ∀ f ∈ fields, Unpaired f.1.toList)
    (h : ∀ f ∈ fields, Canonical f.2) : Canonical (object fields)

inductive Readable : Json → Prop
  | null : Readable null
  | bool {b : Bool} : Readable (bool b)
  | int {n : Int} : Readable (int n)
  | real {x : Binary64} (h : x.Canonical) : Readable (real x)
  | text {s : String} (h : Unpaired s.toList) : Readable (text s)
  | array {items : List Json} (h : ∀ x ∈ items, Readable x) : Readable (array items)
  | object {fields : Fields} (hnames : ∀ f ∈ fields, Unpaired f.1.toList)
    (h : ∀ f ∈ fields, Readable f.2) : Readable (object fields)

theorem Legible.readable {v : Json} (h : v.Legible) : v.Readable := by
  induction h with
  | null => exact .null
  | bool => exact .bool
  | int => exact .int
  | text h => exact .text h
  | array h ih => exact .array ih
  | object hnames h ih => exact .object hnames ih

theorem Readable.canonical {v : Json} (h : v.Readable) : v.Canonical := by
  induction h with
  | null => exact .null
  | bool => exact .bool
  | int => exact .int
  | real h => exact .real h
  | text => exact .text
  | array h ih => exact .array ih
  | object hnames h ih => exact .object hnames ih

mutual

/-- What is read from the text of a value: in texts, two halves become the character they make. -/
def readBack : Json → Json
  | text s => text (String.ofList (paired s.toList))
  | array items => array (readBackItems items)
  | object fields => object (readBackFields fields)
  | null => null
  | bool b => bool b
  | int n => int n
  | real x => real x

def readBackItems : List Json → List Json
  | [] => []
  | x :: xs => readBack x :: readBackItems xs

def readBackFields : List (String × Json) → List (String × Json)
  | [] => []
  | (n, v) :: rest => (n, readBack v) :: readBackFields rest

end

theorem readBackItems_eq (items : List Json) : readBackItems items = items.map readBack := by
  induction items with
  | nil => rfl
  | cons x xs ih => rw [readBackItems, ih, List.map_cons]

theorem readBackFields_eq (fields : Fields) :
    readBackFields fields = fields.map fun f => (f.1, f.2.readBack) := by
  induction fields with
  | nil => rfl
  | cons f fs ih => rw [readBackFields, ih, List.map_cons]

theorem get?_readBackFields (fields : Fields) (name : String) :
    Fields.get? (readBackFields fields) name = (fields.get? name).map readBack := by
  induction fields with
  | nil => rfl
  | cons f fs ih =>
    obtain ⟨n, v⟩ := f
    rw [readBackFields, Fields.get?, Fields.get?, List.lookup_cons, List.lookup_cons]
    split
    · rfl
    · exact ih

theorem Readable.readBack_eq {v : Json} (h : v.Readable) : v.readBack = v := by
  induction h with
  | null => rfl
  | bool => rfl
  | int => rfl
  | real => rfl
  | text h => rw [readBack, paired_eq_self h, String.ofList_toList]
  | array h ih => rw [readBack, readBackItems_eq, List.map_congr_left ih, List.map_id']
  | @object fields hnames h ih =>
    have hfields : ∀ f ∈ fields, (f.1, f.2.readBack) = f := fun f hf => Prod.ext rfl (ih f hf)
    rw [readBack, readBackFields_eq, List.map_congr_left hfields, List.map_id']

theorem Exact.legible {v : Json} (h : v.Exact) : v.Legible := by
  induction h with
  | null => exact .null
  | bool => exact .bool
  | int => exact .int
  | text h => exact .text (unpaired_of_scalar h)
  | array h ih => exact .array ih
  | object hnames h ih => exact .object (fun f hf => unpaired_of_scalar (hnames f hf)) ih

theorem exact_texts {ss : List String} (h : ∀ s ∈ ss, Scalar s) : Exact (texts ss) := by
  refine .array fun x hx => ?_
  obtain ⟨s, hs, rfl⟩ := List.mem_map.mp hx
  exact .text (h s hs)

theorem printed_head (v : Json) :
    ∃ c cs, v.printed = c :: cs ∧ isJsonBlank c = false ∧ c ≠ ']' := by
  cases v with
  | null => exact ⟨_, _, rfl, by decide, by decide⟩
  | bool b =>
    cases b with
    | false => exact ⟨_, _, rfl, by decide, by decide⟩
    | true => exact ⟨_, _, rfl, by decide, by decide⟩
  | int n =>
    rw [printed, toList_int]
    split
    · obtain ⟨d, ds, hds, hd⟩ := (whole_toDigits n.natAbs).head []
      rw [List.append_nil] at hds
      exact ⟨d, ds, hds, isAsciiDigit_plain hd⟩
    · exact ⟨_, _, rfl, by decide, by decide⟩
  | real x =>
    cases x with
    | finite negative m e =>
      obtain ⟨c, p, hspells, -⟩ := spells_text (Decimal.shortest m e)
      obtain ⟨d, ds, hds, hd⟩ := hspells.head
      rw [printed_finite, hds]
      cases negative with
      | false => exact ⟨d, ds, rfl, isAsciiDigit_plain hd⟩
      | true => exact ⟨_, _, rfl, by decide, by decide⟩
    | infinite negative =>
      cases negative with
      | false => exact ⟨_, _, rfl, by decide, by decide⟩
      | true => exact ⟨_, _, rfl, by decide, by decide⟩
    | nan => exact ⟨_, _, rfl, by decide, by decide⟩
  | text s => exact ⟨_, _, rfl, by decide, by decide⟩
  | array items => exact ⟨_, _, rfl, by decide, by decide⟩
  | object fields => exact ⟨_, _, rfl, by decide, by decide⟩

theorem skipBlanks_cons {c : Char} (h : isJsonBlank c = false) (cs : List Char) :
    skipBlanks (c :: cs) = c :: cs := by
  rw [skipBlanks, List.dropWhile_cons, h]
  rfl

/-! ## Texts and numbers -/

theorem length_le_printed (cs : List Char) : cs.length ≤ (cs.flatMap printedChar).length := by
  have hone : ∀ c, 1 ≤ (printedChar c).length := by
    intro c
    unfold printedChar escapeUnits
    dsimp only
    split_ifs <;> simp [unitEscape]
  induction cs with
  | nil => exact Nat.le_refl 0
  | cons c cs ih =>
    rw [List.flatMap_cons, List.length_append, List.length_cons]
    have hc := hone c
    omega

theorem printedText_append (cs rest : List Char) :
    printedText cs ++ rest = '"' :: (cs.flatMap printedChar ++ '"' :: rest) := by
  simp [printedText]

theorem length_printedText (cs : List Char) : cs.length + 2 ≤ (printedText cs).length := by
  have h := length_le_printed cs
  simp only [printedText, List.length_cons, List.length_append, List.length_nil]
  omega

section
variable {room fuel : Nat} {c : Char} {cs rest : List Char}

theorem readValue_digit (hc : isAsciiDigit c = true) :
    readValue room (fuel + 1) (c :: cs) = readNumber (c :: cs) false (c :: cs) := by
  unfold readValue
  split
  all_goals
    rename_i heq
    try cases heq
  all_goals first | cases hc | rfl

theorem readValue_minus (hc : isAsciiDigit c = true) :
    readValue room (fuel + 1) ('-' :: c :: cs) = readNumber ('-' :: c :: cs) true (c :: cs) := by
  unfold readValue
  split
  all_goals
    rename_i heq
    try cases heq
  · cases hc
  · rfl
  · exact absurd rfl (heq _)

/-- A whole number is read back, unless it has too many digits. -/
theorem readValue_int (n : Int) (hrest : Stops rest) :
    readValue room (fuel + 1) ((int n).printed ++ rest) =
      if maxDigits < digitCount n then .error (.tooLong (digitCount n)) else .ok (int n, rest) := by
  rw [printed, toList_int, digitCount]
  have hnumber := @readNumber_toDigits rest hrest n.natAbs
  cases hds : Nat.toDigits 10 n.natAbs with
  | nil => exact absurd hds Nat.toDigits_ne_nil
  | cons d ds =>
    have hd := isAsciiDigit_of_mem_toDigits d (hds ▸ List.mem_cons_self)
    rw [hds] at hnumber
    split
    · rename_i hsign
      have hn : ((n.natAbs : Nat) : Int) = n := Int.natAbs_of_nonneg hsign
      rw [List.cons_append, readValue_digit hd, ← List.cons_append, hnumber]
      simp only [Bool.false_eq_true, ite_false, hn]
    · rename_i hsign
      have hn : -((n.natAbs : Nat) : Int) = n := by omega
      rw [List.cons_append, List.cons_append, readValue_minus hd, ← List.cons_append, hnumber]
      simp only [ite_true, hn]

/-- A real number is read back, if it is one that rounding gives. -/
theorem readValue_real {x : Binary64} (hx : x.Canonical) (hrest : Stops rest) :
    readValue room (fuel + 1) ((real x).printed ++ rest) = .ok (real x, rest) := by
  cases x with
  | finite negative m e =>
    obtain ⟨c, p, hspells, hvalue⟩ := spells_text (Decimal.shortest m e)
    have hread := hspells.read hrest
    obtain ⟨d, ds, hds, hd⟩ := hspells.head
    rw [hds, List.cons_append] at hread
    rw [printed_finite, hds]
    cases negative with
    | false =>
      show readValue room (fuel + 1) (d :: (ds ++ rest)) = _
      rw [readValue_digit hd, hread, Binary64.ofDecimal_of_shortest _ hx hvalue]
    | true =>
      show readValue room (fuel + 1) ('-' :: d :: (ds ++ rest)) = _
      rw [readValue_minus hd, hread, Binary64.ofDecimal_of_shortest _ hx hvalue]
  | infinite negative => cases negative <;> rfl
  | nan => rfl

theorem readValue_text {s s' : String} (hs : TextReadsAs s s') (hf : s.toList.length < fuel) :
    readValue room (fuel + 1) (printedText s.toList ++ rest) = .ok (text s', rest) := by
  rw [printedText_append, readValue, hs _ _ _ hf]
  rfl

end

/-! ## Arrays and objects -/

theorem skipBlanks_space {c : Char} (h : isJsonBlank c = false) (cs : List Char) :
    skipBlanks (' ' :: c :: cs) = c :: cs := by
  rw [skipBlanks, List.dropWhile_cons, if_pos (by decide)]
  exact skipBlanks_cons h cs

section
variable {room fuel : Nat} {c : Char} {cs cs' rest : List Char} {v : Json}

theorem readItems_last (hv : readValue room fuel cs = .ok (v, ']' :: rest)) :
    readItems room (fuel + 1) cs = .ok ([v], rest) := by
  rw [readItems, hv]
  rfl

theorem readItems_next {items : List Json}
    (hv : readValue room fuel cs = .ok (v, ',' :: ' ' :: c :: cs')) (hc : isJsonBlank c = false)
    (hitems : readItems room fuel (c :: cs') = .ok (items, rest)) :
    readItems room (fuel + 1) cs = .ok (v :: items, rest) := by
  rw [readItems, hv]
  show (readItems room fuel (skipBlanks (' ' :: c :: cs')) >>= fun read =>
    pure (v :: read.1, read.2)) = _
  rw [skipBlanks_space hc, hitems]
  rfl

variable {n n' : String} (hn : TextReadsAs n n') (hlength : n.toList.length < fuel)
  (hc : isJsonBlank c = false)
include hn hlength hc

/-- A field is read up to its value, whatever comes after it. -/
theorem readFields_name :
    readFields room (fuel + 1) (printedText n.toList ++ ": ".toList ++ c :: cs) = (do
      let (v, rest) ← readValue room fuel (c :: cs)
      match skipBlanks rest with
      | '}' :: rest => return ([(n', v)], rest)
      | ',' :: rest =>
        let (more, rest) ← readFields room fuel (skipBlanks rest)
        return ((n', v) :: more, rest)
      | rest => refuse .comma rest) := by
  have happend : printedText n.toList ++ ": ".toList ++ c :: cs =
      '"' :: (n.toList.flatMap printedChar ++ '"' :: ':' :: ' ' :: c :: cs) := by
    simp [printedText]
  rw [happend, readFields, hn _ _ _ hlength]
  conv_rhs => rw [← skipBlanks_space hc cs]
  rfl

theorem readFields_last (hv : readValue room fuel (c :: cs) = .ok (v, '}' :: rest)) :
    readFields room (fuel + 1) (printedText n.toList ++ ": ".toList ++ c :: cs) =
      .ok ([(n', v)], rest) := by
  rw [readFields_name hn hlength hc, hv]
  rfl

theorem readFields_next {d : Char} {fields : Fields}
    (hv : readValue room fuel (c :: cs) = .ok (v, ',' :: ' ' :: d :: cs'))
    (hd : isJsonBlank d = false)
    (hfields : readFields room fuel (d :: cs') = .ok (fields, rest)) :
    readFields room (fuel + 1) (printedText n.toList ++ ": ".toList ++ c :: cs) =
      .ok ((n', v) :: fields, rest) := by
  rw [readFields_name hn hlength hc, hv]
  show (do
    let (more, rest) ← readFields room fuel (skipBlanks (' ' :: d :: cs'))
    return ((n', v) :: more, rest)) = _
  rw [skipBlanks_space hd, hfields]
  rfl

end

structure ReadsAs (room : Nat) (v w : Json) : Prop where
  head : ∃ c cs, v.printed = c :: cs ∧ isJsonBlank c = false ∧ c ≠ ']'
  read : ∀ {rest : List Char} {fuel : Nat}, Stops rest → v.printed.length ≤ fuel →
    readValue room fuel (v.printed ++ rest) = .ok (w, rest)

structure FieldReadsAs (room : Nat) (f g : String × Json) : Prop where
  name : TextReadsAs f.1 g.1
  value : ReadsAs room f.2 g.2

theorem printedItems_head {x : Json} {c : Char} {cs : List Char} (hx : x.printed = c :: cs)
    (xs : List Json) : ∃ more, printedItems (x :: xs) = c :: more := by
  cases xs with
  | nil => exact ⟨cs, hx⟩
  | cons y ys =>
    rw [printedItems.eq_3 x (y :: ys) (by simp), hx]
    exact ⟨_, rfl⟩

theorem printedFields_head (f : String × Json) (fs : Fields) :
    ∃ more, printedFields (f :: fs) = '"' :: more := by
  obtain ⟨n, v⟩ := f
  cases fs with
  | nil => exact ⟨_, rfl⟩
  | cons g gs =>
    rw [printedFields.eq_3 n v (g :: gs) (by simp)]
    exact ⟨_, rfl⟩

theorem readItems_printed {room : Nat} {items items' : List Json} (hne : items ≠ [])
    (h : List.Forall₂ (ReadsAs room) items items') {rest : List Char} {fuel : Nat}
    (hf : (printedItems items).length < fuel) :
    readItems room fuel (printedItems items ++ ']' :: rest) = .ok (items', rest) := by
  induction h generalizing fuel with
  | nil => exact absurd rfl hne
  | @cons x x' xs xs' hx hxs ih =>
    obtain ⟨fuel, rfl⟩ := Nat.exists_eq_succ_of_ne_zero (Nat.ne_of_gt (Nat.zero_lt_of_lt hf))
    cases hxs with
    | nil => exact readItems_last (hx.read (stops_cons (by decide) rest) (Nat.le_of_lt_succ hf))
    | @cons y y' ys ys' hy hys =>
      obtain ⟨d, ds, hprinted, hd, -⟩ := hy.head
      obtain ⟨more, hmore⟩ := printedItems_head hprinted ys
      have hcomma : ", ".toList.length = 2 := rfl
      have happend : x.printed ++ ", ".toList ++ printedItems (y :: ys) ++ ']' :: rest =
          x.printed ++ ',' :: ' ' :: d :: (more ++ ']' :: rest) := by
        simp [hmore]
      rw [printedItems.eq_3 x (y :: ys) (by simp)] at hf ⊢
      simp only [List.length_append, hcomma] at hf
      have hitems := ih (List.cons_ne_nil y ys)
        (Nat.lt_of_succ_lt_succ (Nat.lt_of_le_of_lt (by omega) hf))
      rw [hmore] at hitems
      rw [happend]
      exact readItems_next (hx.read (stops_cons (by decide) _) (by omega)) hd hitems

theorem readFields_printed {room : Nat} {fields fields' : Fields} (hne : fields ≠ [])
    (h : List.Forall₂ (FieldReadsAs room) fields fields') {rest : List Char} {fuel : Nat}
    (hf : (printedFields fields).length < fuel) :
    readFields room fuel (printedFields fields ++ '}' :: rest) = .ok (fields', rest) := by
  induction h generalizing fuel with
  | nil => exact absurd rfl hne
  | @cons f f' fs fs' hfield hfs ih =>
    obtain ⟨n, v⟩ := f
    obtain ⟨n', v'⟩ := f'
    obtain ⟨hn, hv⟩ := hfield
    dsimp only at hn hv
    obtain ⟨fuel, rfl⟩ := Nat.exists_eq_succ_of_ne_zero (Nat.ne_of_gt (Nat.zero_lt_of_lt hf))
    obtain ⟨c, cs, hprinted, hc, -⟩ := hv.head
    have hname := length_printedText n.toList
    have hcolon : ": ".toList.length = 2 := rfl
    have hcomma : ", ".toList.length = 2 := rfl
    have hread : ∀ {rest : List Char} {fuel : Nat}, Stops rest → (c :: cs).length ≤ fuel →
        readValue room fuel (c :: cs ++ rest) = .ok (v', rest) := by
      rw [← hprinted]
      exact hv.read
    cases hfs with
    | nil =>
      rw [printedFields] at hf ⊢
      simp only [List.length_append, hcolon] at hf
      rw [List.append_assoc, hprinted]
      rw [hprinted] at hf
      exact readFields_last hn (by omega) hc (hread (stops_cons (by decide) rest) (by omega))
    | @cons g g' gs gs' hg hgs =>
      obtain ⟨more, hmore⟩ := printedFields_head g gs
      rw [printedFields.eq_3 n v (g :: gs) (by simp)] at hf ⊢
      simp only [List.length_append, hcolon, hcomma] at hf
      have hfields := ih (List.cons_ne_nil g gs)
        (Nat.lt_of_succ_lt_succ (Nat.lt_of_le_of_lt (by omega) hf))
      rw [hmore] at hfields
      have happend : printedText n.toList ++ ": ".toList ++ v.printed ++ ", ".toList ++
            printedFields (g :: gs) ++ '}' :: rest =
          printedText n.toList ++ ": ".toList ++
            (c :: cs ++ ',' :: ' ' :: '"' :: (more ++ '}' :: rest)) := by
        simp [hmore, hprinted]
      rw [hprinted] at hf
      rw [happend]
      exact readFields_next hn (by omega) hc
        (hread (stops_cons (by decide) _) (by omega)) (by decide) hfields

/-! ## Values -/

theorem readsAs_int {room : Nat} {n : Int} (h : digitCount n ≤ maxDigits) :
    ReadsAs room (int n) (int n) where
  head := printed_head _
  read := by
    intro rest fuel hrest hf
    obtain ⟨c, cs, hn, -⟩ := printed_head (int n)
    rw [hn] at hf
    obtain ⟨fuel, rfl⟩ := Nat.exists_eq_succ_of_ne_zero (Nat.ne_of_gt (Nat.zero_lt_of_lt hf))
    rw [readValue_int n hrest, if_neg (Nat.not_lt.mpr h)]

theorem readsAs_real {room : Nat} {x : Binary64} (hx : x.Canonical) :
    ReadsAs room (real x) (real x) where
  head := printed_head _
  read := by
    intro rest fuel hrest hf
    obtain ⟨c, cs, hprinted, -⟩ := printed_head (real x)
    rw [hprinted] at hf
    obtain ⟨fuel, rfl⟩ := Nat.exists_eq_succ_of_ne_zero (Nat.ne_of_gt (Nat.zero_lt_of_lt hf))
    exact readValue_real hx hrest

theorem readsAs_text {room : Nat} {s s' : String} (h : TextReadsAs s s') :
    ReadsAs room (text s) (text s') where
  head := printed_head _
  read := by
    intro rest fuel hrest hf
    have hlength := length_printedText s.toList
    rw [printed] at hf ⊢
    obtain ⟨fuel, rfl⟩ := Nat.exists_eq_succ_of_ne_zero (by omega : fuel ≠ 0)
    exact readValue_text h (by omega)

theorem readsAs_array {room : Nat} {items items' : List Json}
    (h : List.Forall₂ (ReadsAs room) items items') :
    ReadsAs (room + 1) (array items) (array items') where
  head := printed_head _
  read := by
    intro rest fuel hrest hf
    rw [printed] at hf ⊢
    simp only [List.length_append, List.length_cons, List.length_nil] at hf
    obtain ⟨fuel, rfl⟩ := Nat.exists_eq_succ_of_ne_zero (by omega : fuel ≠ 0)
    have happend : '[' :: printedItems items ++ [']'] ++ rest =
        '[' :: (printedItems items ++ ']' :: rest) := by simp
    rw [happend, readValue, inside, ok_bind]
    cases h with
    | nil => rfl
    | @cons x x' xs xs' hx hxs =>
      have hitems : readItems room fuel (printedItems (x :: xs) ++ ']' :: rest) =
          .ok (x' :: xs', rest) :=
        readItems_printed (List.cons_ne_nil x xs) (.cons hx hxs) (by omega)
      obtain ⟨c, cs, hprinted, hblank, hclose⟩ := hx.head
      obtain ⟨more, hmore⟩ := printedItems_head hprinted xs
      rw [hmore, List.cons_append] at hitems ⊢
      rw [skipBlanks_cons hblank]
      split
      · rename_i heq
        cases heq
        exact absurd rfl hclose
      · rw [hitems]
        rfl

theorem readsAs_object {room : Nat} {fields fields' : Fields}
    (h : List.Forall₂ (FieldReadsAs room) fields fields')
    (hnodup : (fields'.map (·.1)).Nodup) :
    ReadsAs (room + 1) (object fields) (object fields') where
  head := printed_head _
  read := by
    intro rest fuel hrest hf
    rw [printed] at hf ⊢
    simp only [List.length_append, List.length_cons, List.length_nil] at hf
    obtain ⟨fuel, rfl⟩ := Nat.exists_eq_succ_of_ne_zero (by omega : fuel ≠ 0)
    have happend : '{' :: printedFields fields ++ ['}'] ++ rest =
        '{' :: (printedFields fields ++ '}' :: rest) := by simp
    rw [happend, readValue, inside, ok_bind]
    cases h with
    | nil => rfl
    | @cons f f' fs fs' hfield hfs =>
      have hfields : readFields room fuel (printedFields (f :: fs) ++ '}' :: rest) =
          .ok (f' :: fs', rest) :=
        readFields_printed (List.cons_ne_nil f fs) (.cons hfield hfs) (by omega)
      obtain ⟨more, hmore⟩ := printedFields_head f fs
      rw [hmore, List.cons_append] at hfields ⊢
      rw [skipBlanks_cons (by decide)]
      show (do
        let (mentions, rest) ← readFields room fuel ('"' :: (more ++ '}' :: rest))
        return (object (Fields.ofMentions mentions), rest)) = _
      rw [hfields, ok_bind]
      dsimp only
      rw [Fields.ofMentions_eq hnodup]
      rfl

theorem readsAs_field {room : Nat} {name : String} (hname : Unpaired name.toList) {v w : Json}
    (h : ReadsAs room v w) : FieldReadsAs room (name, v) (name, w) :=
  ⟨textReadsAs_self hname, h⟩

/-- A canonical value that fits is read back from its text, up to halves in texts. -/
theorem readsAs_readBack {v : Json} (hv : v.Canonical) {room : Nat} (hf : v.Fits room) :
    ReadsAs room v v.readBack := by
  induction v using Json.induct generalizing room with
  | null =>
    refine ⟨printed_head _, fun hrest hfuel => ?_⟩
    obtain ⟨fuel, rfl⟩ := Nat.exists_eq_succ_of_ne_zero (Nat.ne_of_gt (Nat.zero_lt_of_lt hfuel))
    rfl
  | bool b =>
    refine ⟨printed_head _, fun hrest hfuel => ?_⟩
    cases b
    all_goals
      obtain ⟨fuel, rfl⟩ := Nat.exists_eq_succ_of_ne_zero (Nat.ne_of_gt (Nat.zero_lt_of_lt hfuel))
      rfl
  | int n =>
    cases hf with
    | int hdigits => exact readsAs_int hdigits
  | real x =>
    cases hv with
    | real hx => exact readsAs_real hx
  | text s => exact readsAs_text (textReadsAs_paired s)
  | array items ih =>
    cases hv with
    | array hcanonical =>
      cases hf with
      | array hfits =>
        rw [readBack, readBackItems_eq]
        refine readsAs_array (List.forall₂_map_right_iff.mpr (List.forall₂_same.mpr fun x hx => ?_))
        exact ih x hx (hcanonical x hx) (hfits x hx)
  | object fields ih =>
    cases hv with
    | object hnames hcanonical =>
      cases hf with
      | object hnodup hfits =>
        rw [readBack, readBackFields_eq]
        refine readsAs_object (List.forall₂_map_right_iff.mpr (List.forall₂_same.mpr fun f hf => ?_)) ?_
        · exact readsAs_field (hnames f hf) (ih f hf (hcanonical f hf) (hfits f hf))
        · rwa [List.map_map]

theorem readsAs_readable {v : Json} (hv : v.Readable) {room : Nat} (hf : v.Fits room) :
    ReadsAs room v v := by
  have hread := readsAs_readBack hv.canonical hf
  rwa [hv.readBack_eq] at hread

/-- A legible value that fits is read back from its text. -/
theorem readsAs_self {v : Json} (hl : v.Legible) {room : Nat} (hf : v.Fits room) :
    ReadsAs room v v := readsAs_readable hl.readable hf

/-- What is read from the text of a value is also read where the text has a line of its own. -/
theorem ReadsAs.parseWithin {v w : Json} {room : Nat} (h : ReadsAs room v w) {ending : String}
    (hending : ending = "" ∨ ending = "\n") : parseWithin room (v.print ++ ending) = .ok w := by
  have hline : (v.print ++ ending).toList = v.printed ++ ending.toList := by
    rw [String.toList_append, print, String.toList_ofList]
  have hstops : Stops ending.toList := by
    rcases hending with rfl | rfl
    · simp [Stops]
    · exact stops_cons (by decide) []
  have hblank : skipBlanks ending.toList = [] := by
    rcases hending with rfl | rfl <;> decide
  have hvalue := @ReadsAs.read _ _ _ h ending.toList
    (2 * (v.printed ++ ending.toList).length + 2) hstops (by rw [List.length_append]; omega)
  have hread : readText room (v.print ++ ending).toList = .ok w := by
    obtain ⟨c, cs, hv, hc, -⟩ := h.head
    have hplain := allPlain_printed v c (hv ▸ List.mem_cons_self)
    have hskip : skipBlanks (v.printed ++ ending.toList) = v.printed ++ ending.toList := by
      rw [hv, List.cons_append, skipBlanks_cons hc]
    rw [hline]
    unfold readText
    split
    · rename_i heq
      rw [hv] at heq
      cases heq
      exact absurd hplain (by decide)
    · rw [hskip, hvalue]
      dsimp only
      rw [hblank]
  rw [Json.parseWithin, hread]
  rfl

/-- The line of an exact value is read back as the value. -/
theorem parseWithin_print {v : Json} (he : v.Exact) {room : Nat} (hf : v.Fits room) :
    parseWithin room (v.print ++ "\n") = .ok v :=
  (readsAs_self he.legible hf).parseWithin (Or.inr rfl)

end Json

end BackendFuzz
