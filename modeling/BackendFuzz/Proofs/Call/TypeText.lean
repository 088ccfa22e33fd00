import BackendFuzz.Proofs.Call.Words
import BackendFuzz.Proofs.Text.Blank
import Mathlib.Data.Nat.Digits.Defs

/-!
# The grammar of type texts

A type text names an integer type if it is the type's kind and a width in digits
of any script, white space around it not counted. Every other text is refused
as it was given, if no run of digits in it is too long to be read as a number.
-/

namespace BackendFuzz

/-! ## Where the text stands -/

/-- What stands under two names, one inside the other, and null where one of them is absent. -/
inductive Json.Under (outer inner : String) : Fields → Json → Prop
  | absent {fields : Fields} (h : fields.get? outer = none) : Under outer inner fields null
  | within {fields inside : Fields} (h : fields.get? outer = some (object inside)) :
    Under outer inner fields ((inside.get? inner).getD null)

/-- The type text of a declared parameter. What counts as false is passed over. -/
inductive TypeText : Json → String → Prop
  | described {fields : Fields} {s : String}
    (h : Json.Under "typeDescriptions" "typeString" fields (.text s)) (hs : s ≠ "") :
    TypeText (.object fields) s
  | named {fields : Fields} {v : Json} {s : String}
    (hv : Json.Under "typeDescriptions" "typeString" fields v) (hfalse : v.truthy = false)
    (h : Json.Under "typeName" "name" fields (.text s)) (hs : s ≠ "") : TypeText (.object fields) s
  | neither {fields : Fields} {v w : Json}
    (hv : Json.Under "typeDescriptions" "typeString" fields v) (hv' : v.truthy = false)
    (hw : Json.Under "typeName" "name" fields w) (hw' : w.truthy = false) :
    TypeText (.object fields) ""

theorem Json.under_iff {fields : Fields} {outer inner : String} {v : Json} :
    ((object fields).fieldOr outer (object []) >>= (·.field inner)) = .ok v ↔
      Under outer inner fields v := by
  have hfield : (object fields).fieldOr outer (object []) =
      .ok ((fields.get? outer).getD (object [])) := rfl
  rw [hfield, ok_bind]
  constructor
  · intro h
    cases hget : fields.get? outer with
    | none =>
      rw [hget] at h
      cases h
      exact .absent hget
    | some j =>
      rw [hget] at h
      cases j with
      | object inside => cases h; exact .within hget
      | _ => cases h
  · rintro (hget | hget) <;> rw [hget] <;> rfl

theorem truthy_text {s : String} : (Json.text s).truthy = true ↔ s ≠ "" := by
  simp [Json.truthy]

theorem typeTextOf_text_iff {parameter : Json} {s : String} :
    typeTextOf parameter = .ok (.text s) ↔ TypeText parameter s := by
  have heq : typeTextOf parameter =
      ((parameter.fieldOr "typeDescriptions" (.object []) >>= (·.field "typeString")) >>=
        fun v => v.orElse ((parameter.fieldOr "typeName" (.object []) >>= (·.field "name")) >>=
          fun w => w.orElse (.ok (.text "")))) := by
    simp only [typeTextOf, bind_assoc]
  rw [heq]
  constructor
  · intro h
    obtain ⟨v, hv, h⟩ := bind_ok_inv h
    cases parameter with
    | object fields =>
      rw [Json.under_iff] at hv
      by_cases htrue : v.truthy = true
      · rw [Json.orElse, if_pos htrue] at h
        cases h
        exact .described hv (truthy_text.mp htrue)
      · rw [Json.orElse, if_neg htrue] at h
        obtain ⟨w, hw, h⟩ := bind_ok_inv h
        rw [Json.under_iff] at hw
        rw [Bool.not_eq_true] at htrue
        by_cases htrue' : w.truthy = true
        · rw [Json.orElse, if_pos htrue'] at h
          cases h
          exact .named hv htrue hw (truthy_text.mp htrue')
        · rw [Json.orElse, if_neg htrue'] at h
          cases h
          exact .neither hv htrue hw (Bool.eq_false_iff.mpr htrue')
    | _ => cases hv
  · intro h
    cases h with
    | described h hs => rw [Json.under_iff.mpr h, ok_bind, Json.orElse, if_pos (truthy_text.mpr hs)]
    | named hv hfalse h hs =>
      rw [Json.under_iff.mpr hv, ok_bind, Json.orElse, if_neg (by simp [hfalse]),
        Json.under_iff.mpr h, ok_bind, Json.orElse, if_pos (truthy_text.mpr hs)]
    | neither hv hv' hw hw' =>
      rw [Json.under_iff.mpr hv, ok_bind, Json.orElse, if_neg (by simp [hv']),
        Json.under_iff.mpr hw, ok_bind, Json.orElse, if_neg (by simp [hw'])]

/-! ## Widths -/

theorem ofDigits_eq (ds : List Nat) : ofDigits ds = Nat.ofDigits 10 ds.reverse := by
  induction ds using List.reverseRecOn with
  | nil => rfl
  | append_singleton ds d ih =>
    rw [Json.ofDigits_concat, ih, List.reverse_append, List.reverse_singleton,
      List.singleton_append, Nat.ofDigits_cons, Nat.add_comm]

abbrev DigitValues (cs : List Char) (digits : List Nat) : Prop :=
  List.Forall₂ (fun c d => Text.digitValue? c = some d) cs digits

theorem mapM_digitValue?_iff {cs : List Char} {digits : List Nat} :
    cs.mapM Text.digitValue? = some digits ↔ DigitValues cs digits := by
  induction cs generalizing digits with
  | nil => cases digits <;> simp
  | cons c cs ih =>
    simp only [List.mapM_cons, Option.bind_eq_bind, Option.bind_eq_some_iff, Option.pure_def,
      Option.some.injEq, ih]
    constructor
    · rintro ⟨d, hd, ds, hds, rfl⟩
      exact .cons hd hds
    · intro h
      cases h with
      | cons hd hds => exact ⟨_, hd, _, hds, rfl⟩

theorem DigitValues.isDigit {cs : List Char} {digits : List Nat} (h : DigitValues cs digits) :
    ∀ c ∈ cs, Text.isDigit c = true := by
  induction h with
  | nil => simp
  | cons hc _ ih => simpa [Text.isDigit, hc] using ih

def ShortRuns (cs : List Char) : Prop :=
  ∀ run, run <:+: cs → (∀ c ∈ run, Text.isDigit c = true) → run.length ≤ maxDigits

/-- The bits that a width says, the most significant digit first; without digits there are 256. -/
def widthBits (digits : List Nat) : Nat :=
  if digits = [] then 256 else Nat.ofDigits 10 digits.reverse

namespace IntegerType

structure HasWidth (t : IntegerType) (width : List Char) : Prop where
  read : ∃ digits, DigitValues width digits ∧ t.bits = widthBits digits
  bytes : 8 ∣ t.bits
  least : 8 ≤ t.bits
  most : t.bits ≤ 256

def kind (t : IntegerType) : String := if t.signed then "int" else "uint"

def Spells (t : IntegerType) (cs : List Char) : Prop :=
  ∃ width, cs = t.kind.toList ++ width ∧ t.HasWidth width

end IntegerType

section
variable {cs : List Char} {signed : Bool}

theorem readWidth_eq {digits : List Nat} (h : DigitValues cs digits)
    (hlength : cs.length ≤ maxDigits) :
    readWidth signed cs =
      if 8 ∣ widthBits digits ∧ 8 ≤ widthBits digits ∧ widthBits digits ≤ 256 then
        .type ⟨signed, widthBits digits⟩
      else .other := by
  rw [readWidth, mapM_digitValue?_iff.mpr h]
  simp only [← h.length_eq, Nat.not_lt.mpr hlength, if_false, List.isEmpty_iff, ofDigits_eq,
    Nat.dvd_iff_mod_eq_zero, widthBits]

/-- A width with short runs of digits either is that of a type or is refused. -/
theorem readWidth_cases (hruns : ShortRuns cs) : readWidth signed cs = .other ∨
    ∃ t : IntegerType, readWidth signed cs = .type t ∧ t.signed = signed ∧ t.HasWidth cs := by
  cases hread : cs.mapM Text.digitValue? with
  | none => exact .inl (by simp [readWidth, hread])
  | some digits =>
    have hdigits := mapM_digitValue?_iff.mp hread
    rw [readWidth_eq hdigits (hruns cs List.infix_rfl hdigits.isDigit)]
    by_cases hbits : 8 ∣ widthBits digits ∧ 8 ≤ widthBits digits ∧ widthBits digits ≤ 256
    · rw [if_pos hbits]
      exact .inr ⟨_, rfl, rfl, ⟨digits, hdigits, rfl⟩, hbits.1, hbits.2.1, hbits.2.2⟩
    · exact .inl (if_neg hbits)

theorem readWidth_type_iff (hruns : ShortRuns cs) {t : IntegerType} :
    readWidth signed cs = .type t ↔ t.signed = signed ∧ t.HasWidth cs := by
  constructor
  · intro h
    rcases readWidth_cases hruns with hother | ⟨t', ht', hwidth⟩
    · cases hother.symm.trans h
    · cases ht'.symm.trans h
      exact hwidth
  · rintro ⟨rfl, ⟨digits, hdigits, hbits⟩, hbytes, hleast, hmost⟩
    rw [readWidth_eq hdigits (hruns cs List.infix_rfl hdigits.isDigit), ← hbits,
      if_pos ⟨hbytes, hleast, hmost⟩]

theorem readWidth_ne_tooLong (hruns : ShortRuns cs) (count : Nat) :
    readWidth signed cs ≠ .tooLong count := by
  intro h
  rcases readWidth_cases hruns with hother | ⟨t, ht, -⟩
  · cases hother.symm.trans h
  · cases ht.symm.trans h

theorem shortRuns_of_length (h : cs.length ≤ maxDigits) : ShortRuns cs :=
  fun _ hrun _ => Nat.le_trans hrun.length_le h

theorem ShortRuns.inside {cs' : List Char} (h : ShortRuns cs) (hcs : cs' <:+: cs) : ShortRuns cs' :=
  fun run hrun => h run (hrun.trans hcs)

/-! ## Types -/

theorem readType_kind (t : IntegerType) (width : List Char) :
    readType (t.kind.toList ++ width) = readWidth t.signed width := by
  obtain ⟨signed, bits⟩ := t
  cases signed <;> simp [IntegerType.kind, readType]

/-- A text that is read as anything but another one starts with a kind. -/
theorem readType_inv {r : TypeReading} (h : readType cs = r) (hr : r ≠ .other) :
    ∃ signed width, (∀ bits, cs = (IntegerType.mk signed bits).kind.toList ++ width) ∧
      readWidth signed width = r := by
  unfold readType at h
  split at h
  · exact ⟨true, _, fun bits => by simp [IntegerType.kind], h⟩
  · exact ⟨false, _, fun bits => by simp [IntegerType.kind], h⟩
  · exact absurd h.symm hr

theorem readType_type_iff (hruns : ShortRuns cs) {t : IntegerType} :
    readType cs = .type t ↔ t.Spells cs := by
  constructor
  · intro h
    obtain ⟨signed, width, hcs, hwidth⟩ := readType_inv h (by simp)
    have hinfix : width <:+: cs := hcs t.bits ▸ (List.suffix_append _ _).isInfix
    obtain ⟨rfl, hhas⟩ := (readWidth_type_iff (hruns.inside hinfix)).mp hwidth
    exact ⟨width, hcs t.bits, hhas⟩
  · rintro ⟨width, rfl, hwidth⟩
    have hinfix : width <:+: t.kind.toList ++ width := (List.suffix_append _ _).isInfix
    rw [readType_kind]
    exact (readWidth_type_iff (hruns.inside hinfix)).mpr ⟨rfl, hwidth⟩

theorem readType_ne_tooLong (hruns : ShortRuns cs) (count : Nat) :
    readType cs ≠ .tooLong count := by
  intro h
  obtain ⟨signed, width, hcs, hwidth⟩ := readType_inv h (by simp)
  have hinfix : width <:+: cs := hcs 0 ▸ (List.suffix_append _ _).isInfix
  exact readWidth_ne_tooLong (hruns.inside hinfix) count hwidth

end

/-! ## Canonical names -/

theorem digitValue?_of_isAsciiDigit {c : Char} (h : Json.isAsciiDigit c = true) :
    Text.digitValue? c = some (c.toNat - '0'.toNat) := by
  have hc : 48 ≤ c.toNat ∧ c.toNat ≤ 57 := by
    simp only [Json.isAsciiDigit, Bool.and_eq_true, decide_eq_true_eq, Char.le_def] at h
    exact h
  simp [Text.digitValue?, Text.zeros, hc]

theorem not_isBlank_of_isAsciiDigit {c : Char} (h : Json.isAsciiDigit c = true) :
    Text.isBlank c = false := by
  have hc : Text.inRanges [(48, 57)] c = true := by
    simp only [Json.isAsciiDigit, Bool.and_eq_true, decide_eq_true_eq, Char.le_def] at h
    exact Text.inRanges_iff.mpr ⟨_, List.mem_singleton_self _, h⟩
  exact Text.inRanges_of_disjoint (by decide) hc

theorem digitValues_toDigits (n : Nat) :
    DigitValues (Nat.toDigits 10 n) (Json.digitsOf (Nat.toDigits 10 n)) := by
  rw [DigitValues, Json.digitsOf, List.forall₂_map_right_iff, List.forall₂_same]
  exact fun c hc => digitValue?_of_isAsciiDigit (Json.isAsciiDigit_of_mem_toDigits c hc)

namespace IntegerType

theorem toList_canonical (t : IntegerType) :
    t.canonical.toList = t.kind.toList ++ Nat.toDigits 10 t.bits := by
  rw [canonical, String.toList_append, Nat.toString_eq_repr, Nat.toList_repr]
  rfl

theorem trim_canonical (t : IntegerType) : Text.trim t.canonical.toList = t.canonical.toList := by
  have hkind : ∀ c ∈ t.kind.toList, Text.isBlank c = false := by
    obtain ⟨signed, bits⟩ := t
    cases signed <;> simp [kind, Text.isBlank, Text.inRanges, Text.blankRanges]
  refine Text.trim_eq_self fun c hc => ?_
  rw [toList_canonical] at hc
  rcases List.mem_append.mp hc with hc | hc
  · exact hkind c hc
  · exact not_isBlank_of_isAsciiDigit (Json.isAsciiDigit_of_mem_toDigits c hc)

theorem readType_canonical {t : IntegerType} {width : List Char} (h : t.HasWidth width) :
    readType t.canonical.toList = .type t := by
  -- A canonical width is short, whatever the width was that the type was read from.
  have hlength : (Nat.toDigits 10 t.bits).length ≤ 3 :=
    (Nat.length_toDigits_le_iff (by decide) (by decide)).mpr (Nat.lt_of_le_of_lt h.most (by decide))
  have hbits : widthBits (Json.digitsOf (Nat.toDigits 10 t.bits)) = t.bits := by
    rw [widthBits, if_neg (by simp [Json.digitsOf, Nat.toDigits_ne_nil]), ← ofDigits_eq,
      Json.ofDigits_digitsOf_toDigits]
  rw [toList_canonical, readType_kind, readWidth_eq (digitValues_toDigits _)
    (Nat.le_trans hlength (by decide)), hbits, if_pos ⟨h.bytes, h.least, h.most⟩]

end IntegerType

section
variable {parameter : Json} {s : String}

theorem resolveType_eq (h : TypeText parameter s) : resolveType parameter =
    match readType (Text.trim s.toList) with
    | .type t => .ok t
    | .tooLong digits => .error (.misuse (.digits digits))
    | .other => (parameter.fieldOr "name" (.text "")).mapError Fault.misuse >>= fun name =>
      .error (.parameter ⟨s, name⟩) := by
  rw [resolveType, typeTextOf_text_iff.mpr h]
  rfl

theorem TypeText.fieldOr (h : TypeText parameter s) (name : String) (default : Json) :
    ∃ v, parameter.fieldOr name default = .ok v := by
  cases h <;> exact ⟨_, rfl⟩

/-- A parameter has a type exactly if its type text spells one between white space, and only that
one; its canonical name has the same type. Otherwise the text is refused, as it stands. -/
theorem types_are_read_as_spelled (h : TypeText parameter s) (hruns : ShortRuns s.toList) :
    (∀ t, resolveType parameter = .ok t ↔
      ∃ core, Text.Bare Text.isBlank s.toList core ∧ t.Spells core) ∧
    (∀ fault, resolveType parameter = .error fault ↔
      (¬ ∃ t core, Text.Bare Text.isBlank s.toList core ∧ IntegerType.Spells t core) ∧
      ∃ name, parameter.fieldOr "name" (.text "") = .ok name ∧ fault = .parameter ⟨s, name⟩) ∧
    ∀ t, resolveType parameter = .ok t → ∀ node, TypeText node t.canonical →
      resolveType node = .ok t := by
  have hcore : Text.trim s.toList <:+: s.toList := by
    obtain ⟨before, after, hs, -⟩ := (Text.bare_trim s.toList).around
    exact ⟨before, after, hs.symm⟩
  have htype := @readType_type_iff _ (hruns.inside hcore)
  have hspelled : ∀ t : IntegerType,
      (∃ core, Text.Bare Text.isBlank s.toList core ∧ t.Spells core) ↔
        readType (Text.trim s.toList) = .type t := by
    simp [Text.bare_iff_trim, htype]
  simp only [hspelled]
  obtain ⟨name, hname⟩ := h.fieldOr "name" (.text "")
  rw [resolveType_eq h, hname]
  cases hread : readType (Text.trim s.toList) with
  | tooLong count => exact absurd hread (readType_ne_tooLong (hruns.inside hcore) count)
  | other => simp [mapError_ok, ok_bind, eq_comm]
  | type t =>
    obtain ⟨width, -, hwidth⟩ := htype.mp hread
    refine ⟨by simp, by simp, fun t' ht' node hnode => ?_⟩
    cases ht'
    rw [resolveType_eq hnode, t.trim_canonical, IntegerType.readType_canonical hwidth]

end

namespace Sample

theorem typeText_parameter {s : String} (h : s ≠ "") : TypeText (parameter s) s :=
  .described (Json.under_iff.mp rfl) h

theorem spells_byte : (IntegerType.mk false 8).Spells ['u', 'i', 'n', 't', '٠', '٨'] := by
  refine ⟨['٠', '٨'], by simp [IntegerType.kind], ⟨[0, 8], .cons ?_ (.cons ?_ .nil), rfl⟩,
    by decide, by decide, by decide⟩ <;> decide

end Sample

/-- A width in Arabic digits, with a zero in front, is that of a byte; twelve bits are refused. -/
theorem types_are_read_as_spelled_byte :
    resolveType (Sample.parameter "\tuint٠٨ ") = .ok ⟨false, 8⟩ ∧
    resolveType (Sample.parameter "uint8") = .ok ⟨false, 8⟩ ∧
    resolveType (Sample.parameter " int12") = .error (.parameter ⟨" int12", .text ""⟩) := by
  obtain ⟨haccepted, -, hcanonical⟩ := types_are_read_as_spelled
    (Sample.typeText_parameter (s := "\tuint٠٨ ") (by decide)) (shortRuns_of_length (by decide))
  obtain ⟨-, hrefused, -⟩ := types_are_read_as_spelled
    (Sample.typeText_parameter (s := " int12") (by decide)) (shortRuns_of_length (by decide))
  have hbyte := (haccepted ⟨false, 8⟩).mpr ⟨_, Text.bare_trim _, Sample.spells_byte⟩
  refine ⟨hbyte, hcanonical _ hbyte _ (Sample.typeText_parameter (by decide)),
    (hrefused _).mpr ⟨?_, _, rfl, rfl⟩⟩
  rintro ⟨t, core, hbare, hspells⟩
  have hother : readType (Text.trim " int12".toList) = .other := by decide
  rw [Text.bare_iff_trim.mp hbare, ← readType_type_iff (shortRuns_of_length (by decide)),
    hother] at hspells
  cases hspells

end BackendFuzz
