import Mathlib.Data.List.TakeWhile
import BackendFuzz.Proofs.Compiler.Run
import BackendFuzz.Proofs.Execution.Success

/-!
# Compilers that are looked for

A standard compiler is listed or installed before it is used, and the version of
the object-format build is read off the report of a wrapper. Both are done once:
what was learned is remembered, unless it ended in a fault.
-/

namespace BackendFuzz

open Session

/-! ## Versions in reports -/

namespace CompilerVersion

def Digits (run : List Char) : Prop := run ≠ [] ∧ ∀ c ∈ run, Text.isDigit c = true

/-- A text that begins with the label, one blank and three numbers between dots, the last of them
as long as it can be. -/
def Spells (cs version : List Char) : Prop :=
  ∃ blank major minor patch rest,
    cs = "Version:".toList ++ blank :: (major ++ '.' :: (minor ++ '.' :: (patch ++ rest))) ∧
    Text.isBlank blank = true ∧ Digits major ∧ Digits minor ∧ Digits patch ∧
    (∀ c ∈ rest.head?, Text.isDigit c = false) ∧
    version = major ++ '.' :: minor ++ '.' :: patch

def FirstVersion (cs version : List Char) : Prop :=
  ∃ before rest, cs = before ++ rest ∧ Spells rest version ∧
    ∀ before' rest' version', cs = before' ++ rest' → Spells rest' version' →
      before.length ≤ before'.length

section
variable {cs run rest version : List Char}

theorem digits?_append (hrun : Digits run) (hrest : ∀ c ∈ rest.head?, Text.isDigit c = false) :
    digits? (run ++ rest) = some (run, rest) := by
  have htake : (run ++ rest).takeWhile Text.isDigit = run := by
    rw [List.takeWhile_append_of_pos hrun.2]
    cases rest with
    | nil => simp
    | cons c rest => simp [hrest c rfl]
  have hdrop : (run ++ rest).dropWhile Text.isDigit = rest := by
    have hsplit := List.takeWhile_append_dropWhile (p := Text.isDigit) (l := run ++ rest)
    rw [htake] at hsplit
    exact List.append_cancel_left hsplit
  simp [digits?, htake, hdrop, hrun.1]

theorem digits?_inv (h : digits? cs = some (run, rest)) :
    cs = run ++ rest ∧ Digits run ∧ ∀ c ∈ rest.head?, Text.isDigit c = false := by
  unfold digits? at h
  dsimp only at h
  split at h
  · cases h
  · rename_i hne
    cases h
    refine ⟨(List.takeWhile_append_dropWhile).symm, ⟨by simpa using hne, ?_⟩, ?_⟩
    · exact fun c hc => List.mem_takeWhile_imp hc
    · intro c hc
      have hnot := List.head?_dropWhile_not Text.isDigit cs
      rwa [Option.mem_def.mp hc] at hnot

theorem dot?_eq_some : dot? cs = some rest ↔ cs = '.' :: rest := by
  unfold dot?
  split
  · simp [eq_comm]
  · rename_i h
    simp only [reduceCtorEq, false_iff]
    exact h rest

theorem versionHere_eq_some_iff : versionHere cs = some version ↔ Spells cs version := by
  have hdot : Text.isDigit '.' = false := by decide +kernel
  constructor
  · intro h
    unfold versionHere at h
    obtain ⟨found, hafter, h⟩ := Option.bind_eq_some_iff.mp h
    rw [Report.after?_eq_some] at hafter
    cases found with
    | nil => cases h
    | cons blank found =>
      by_cases hblank : Text.isBlank blank = true
      · simp only [hblank, if_true] at h
        obtain ⟨⟨major, rest₁⟩, hmajor, h⟩ := Option.bind_eq_some_iff.mp h
        obtain ⟨rest₂, hdot₁, h⟩ := Option.bind_eq_some_iff.mp h
        obtain ⟨⟨minor, rest₃⟩, hminor, h⟩ := Option.bind_eq_some_iff.mp h
        obtain ⟨rest₄, hdot₂, h⟩ := Option.bind_eq_some_iff.mp h
        obtain ⟨⟨patch, rest⟩, hpatch, h⟩ := Option.bind_eq_some_iff.mp h
        cases h
        obtain ⟨rfl, hmajors, -⟩ := digits?_inv hmajor
        obtain ⟨rfl, hminors, -⟩ := digits?_inv hminor
        obtain ⟨rfl, hpatches, hrest⟩ := digits?_inv hpatch
        obtain rfl := dot?_eq_some.mp hdot₁
        obtain rfl := dot?_eq_some.mp hdot₂
        exact ⟨blank, major, minor, patch, rest, hafter, hblank, hmajors, hminors, hpatches, hrest,
          rfl⟩
      · simp [hblank] at h
  · rintro ⟨blank, major, minor, patch, rest, rfl, hblank, hmajor, hminor, hpatch, hrest, rfl⟩
    unfold versionHere
    have hdotted : ∀ more, ∀ c ∈ ('.' :: more).head?, Text.isDigit c = false := by
      intro more c hc
      cases hc
      exact hdot
    rw [Report.after?_eq_some.mpr rfl]
    simp only [Option.bind_eq_bind, Option.bind_some, hblank, if_true,
      digits?_append hmajor (hdotted _), digits?_append hminor (hdotted _),
      digits?_append hpatch hrest, dot?]
    rfl

theorem not_spells_nil : ¬ Spells [] version := by
  rintro ⟨blank, major, minor, patch, rest, h, -⟩
  simp at h

theorem versionIn_eq_some_iff : versionIn cs = some version ↔ FirstVersion cs version := by
  induction cs with
  | nil =>
    rw [versionIn, versionHere_eq_some_iff]
    refine iff_of_false not_spells_nil ?_
    rintro ⟨before, rest, hsplit, hspells, -⟩
    obtain ⟨-, rfl⟩ := List.append_eq_nil_iff.mp hsplit.symm
    exact not_spells_nil hspells
  | cons c cs ih =>
    cases hhere : versionHere (c :: cs) with
    | some first =>
      have hfirst := versionHere_eq_some_iff.mp hhere
      rw [versionIn, hhere]
      constructor
      · intro h
        cases h
        exact ⟨[], c :: cs, rfl, hfirst, fun _ _ _ _ _ => Nat.zero_le _⟩
      · rintro ⟨before, rest, hsplit, hspells, hleast⟩
        obtain rfl := List.length_eq_zero_iff.mp (Nat.le_zero.mp (hleast [] _ _ rfl hfirst))
        obtain rfl : c :: cs = rest := hsplit
        rw [← versionHere_eq_some_iff.mpr hspells, hhere]
    | none =>
      have hnone : ∀ version', ¬ Spells (c :: cs) version' := by
        intro version' h
        rw [versionHere_eq_some_iff.mpr h] at hhere
        cases hhere
      rw [versionIn, hhere]
      dsimp only
      rw [ih]
      constructor
      · rintro ⟨before, rest, rfl, hspells, hleast⟩
        refine ⟨c :: before, rest, rfl, hspells, ?_⟩
        rintro (_ | ⟨d, before'⟩) rest' version' hsplit hspells'
        · obtain rfl : c :: (before ++ rest) = rest' := hsplit
          exact absurd hspells' (hnone version')
        · exact Nat.succ_le_succ (hleast _ _ _ (List.cons.inj hsplit).2 hspells')
      · rintro ⟨before, rest, hsplit, hspells, hleast⟩
        cases before with
        | nil =>
          obtain rfl : c :: cs = rest := hsplit
          exact absurd hspells (hnone version)
        | cons d before =>
          refine ⟨before, rest, (List.cons.inj hsplit).2, hspells, ?_⟩
          intro before' rest' version' hsplit' hspells'
          exact Nat.le_of_succ_le_succ (hleast (c :: before') rest' version' (by rw [hsplit']; rfl)
            hspells')

theorem versionIn_eq_none_iff : versionIn cs = none ↔ ∀ version, ¬ FirstVersion cs version := by
  rw [Option.eq_none_iff_forall_ne_some]
  exact forall_congr' fun version => not_congr versionIn_eq_some_iff

end

/-! ## The version of the object-format build -/

/-- The version that a reply of the wrapper stands for: the one its report names first if it ended
well, and else the default one. A wrapper that could not be started has told nothing. -/
inductive Tells (settings : Settings) : ProgramReply → String → Prop
  | named {ended : Ended} {version : List Char} (hcode : ended.code = 0)
    (hversion : FirstVersion ended.output.toList version) :
    Tells settings (.ended ended) (String.ofList version)
  | unnamed {ended : Ended}
    (hnone : ended.code = 0 → ∀ version, ¬ FirstVersion ended.output.toList version) :
    Tells settings (.ended ended) settings.defaultSolcVersion
  | timedOut : Tells settings .timedOut settings.defaultSolcVersion
  | missing : Tells settings .missing settings.defaultSolcVersion

theorem Tells.unique {settings : Settings} {reply : ProgramReply} {version version' : String}
    (h : Tells settings reply version) (h' : Tells settings reply version') : version = version' := by
  cases h with
  | named hcode hversion =>
    cases h' with
    | named hcode' hversion' =>
      rw [← versionIn_eq_some_iff] at hversion hversion'
      rw [Option.some.inj (hversion.symm.trans hversion')]
    | unnamed hnone => exact absurd hversion (hnone hcode _)
  | unnamed hnone =>
    cases h' with
    | named hcode' hversion' => exact absurd hversion' (hnone hcode' _)
    | unnamed => rfl
  | timedOut => cases h'; rfl
  | missing => cases h'; rfl

def request (settings : Settings) (path : String) : Request :=
  .eofVersion ["bash", settings.solcVersionWrapperPath, path] settings.compileTimeout

inductive Queried (settings : Settings) (path : String) (o : Outside) (b : Bench) :
    Except Fault String → Bench → Prop
  | known {version : String} (hknown : b.memory.versions.lookup path = some version) :
    Queried settings path o b (.ok version) b
  | told {version : String} {events : List LogEvent}
    (hunknown : b.memory.versions.lookup path = none)
    (htells : Tells settings (o.eofVersion b.asked) version) :
    Queried settings path o b (.ok version)
      { b with asked := b.asked ++ [request settings path], events
               memory := { b.memory with versions := b.memory.versions ++ [(path, version)] } }
  | refused {fault : Fault} (hunknown : b.memory.versions.lookup path = none)
    (htells : ∀ version, ¬ Tells settings (o.eofVersion b.asked) version) :
    Queried settings path o b (.error fault) { b with asked := b.asked ++ [request settings path] }

section
variable {settings : Settings} {path : String} {o : Outside} {b : Bench}

theorem tells_told (settings : Settings) (ended : Ended) :
    Tells settings (.ended ended) ((told? ended).getD settings.defaultSolcVersion) := by
  unfold told?
  by_cases hcode : ended.code = 0
  · simp only [hcode, if_true]
    cases hversion : versionIn ended.output.toList with
    | some version => exact .named hcode (versionIn_eq_some_iff.mp hversion)
    | none => exact .unnamed fun _ => versionIn_eq_none_iff.mp hversion
  · simp only [hcode, if_false]
    exact .unnamed fun h => absurd h hcode

theorem run_query_unknown (hunknown : b.memory.versions.lookup path = none) :
    (∃ version events, Tells settings (o.eofVersion b.asked) version ∧
      (query settings path).run o b = (.ok version, { b with
        asked := b.asked ++ [request settings path], events
        memory := { b.memory with versions := b.memory.versions ++ [(path, version)] } })) ∨
    ∃ fault, (∀ version, ¬ Tells settings (o.eofVersion b.asked) version) ∧
      (query settings path).run o b =
        (.error fault, { b with asked := b.asked ++ [request settings path] }) := by
  unfold query
  rw [run_bind_ok (run_get o b), hunknown]
  dsimp only
  rw [run_bind_ok (run_note o b _), run_bind_ok (run_read o _)]
  cases hreply : o.eofVersion b.asked with
  | ended ended =>
    have htells := tells_told settings ended
    dsimp only
    cases htold : told? ended with
    | some version =>
      rw [htold] at htells
      exact Or.inl ⟨_, _, htells, rfl⟩
    | none =>
      rw [htold] at htells
      exact Or.inl ⟨_, _, htells, rfl⟩
  | timedOut => exact Or.inl ⟨_, _, .timedOut, rfl⟩
  | missing => exact Or.inl ⟨_, _, .missing, rfl⟩
  | denied => exact Or.inr ⟨_, by rintro _ ⟨⟩, rfl⟩
  | interrupted => exact Or.inr ⟨_, by rintro _ ⟨⟩, rfl⟩

theorem run_query_known {version : String}
    (hknown : b.memory.versions.lookup path = some version) :
    (query settings path).run o b = (.ok version, b) := by
  unfold query
  rw [run_bind_ok (run_get o b), hknown]
  rfl

theorem queried {r : Except Fault String} {b' : Bench}
    (h : (query settings path).run o b = (r, b')) : Queried settings path o b r b' := by
  cases hknown : b.memory.versions.lookup path with
  | some version =>
    cases (run_query_known hknown).symm.trans h
    exact .known hknown
  | none =>
    obtain ⟨version, events, htells, hrun⟩ | ⟨fault, htells, hrun⟩ := run_query_unknown hknown
    · cases hrun.symm.trans h
      exact .told hknown htells
    · cases hrun.symm.trans h
      exact .refused hknown htells

end

end CompilerVersion

/-! ## Standard compilers -/

namespace StandardCompiler

inductive Ensured (settings : Settings) (version : String) (o : Outside) (b : Bench) :
    Except Fault Unit → Bench → Prop
  | known (hknown : version ∈ b.memory.installed) : Ensured settings version o b (.ok ()) b
  | listed (hunknown : version ∉ b.memory.installed) (hlisted : version ∈ o.installed b.asked) :
    Ensured settings version o b (.ok ())
      { b with asked := b.asked ++ [.installedVersions]
               memory := { b.memory with installed := b.memory.installed ++ [version] } }
  | installed {events : List LogEvent} (hunknown : version ∉ b.memory.installed)
    (hunlisted : version ∉ o.installed b.asked) (hallowed : settings.solcInstallMissing = true)
    (hinstall : o.install (b.asked ++ [.installedVersions]) version = none) :
    Ensured settings version o b (.ok ())
      { b with asked := b.asked ++ [.installedVersions] ++ [.install version], events
               memory := { b.memory with installed := b.memory.installed ++ [version] } }
  | forbidden (hunknown : version ∉ b.memory.installed) (hunlisted : version ∉ o.installed b.asked)
    (hallowed : settings.solcInstallMissing = false) :
    Ensured settings version o b (.error (.configuration (.compilerMissing version)))
      { b with asked := b.asked ++ [.installedVersions] }
  | failed {reason : String} {events : List LogEvent} (hunknown : version ∉ b.memory.installed)
    (hunlisted : version ∉ o.installed b.asked) (hallowed : settings.solcInstallMissing = true)
    (hinstall : o.install (b.asked ++ [.installedVersions]) version = some reason) :
    Ensured settings version o b (.error (.installation reason))
      { b with asked := b.asked ++ [.installedVersions] ++ [.install version], events }

section
variable {settings : Settings} {version : String} {o : Outside} {b b' : Bench}
  {r : Except Fault Unit}

theorem ensured (h : (ensureInstalled settings version).run o b = (r, b')) :
    Ensured settings version o b r b' := by
  by_cases hknown : version ∈ b.memory.installed
  · rw [run_ensureInstalled (List.contains_iff_mem.mpr hknown)] at h
    cases h
    exact .known hknown
  · have hcontains : b.memory.installed.contains version = false := by simpa using hknown
    unfold ensureInstalled at h
    rw [run_bind_ok (run_get o b)] at h
    simp only [hcontains, Bool.false_eq_true, if_false] at h
    rw [run_bind_ok (run_note o b _), run_bind_ok (run_read o _)] at h
    by_cases hlisted : version ∈ o.installed b.asked
    · simp only [List.contains_iff_mem.mpr hlisted, Bool.not_true, Bool.false_eq_true, if_false] at h
      cases h
      exact .listed hknown hlisted
    · have hunlisted : (o.installed b.asked).contains version = false := by simpa using hlisted
      cases hallowed : settings.solcInstallMissing with
      | false =>
        simp only [hunlisted, hallowed, Bool.not_false, if_true] at h
        cases h
        exact .forbidden hknown hlisted hallowed
      | true =>
        simp only [hunlisted, hallowed, Bool.not_false, Bool.not_true, Bool.false_eq_true, if_true,
          if_false] at h
        rw [run_bind_ok (run_info o _ _ _), run_bind_ok (run_note o _ _),
          run_bind_ok (run_read o _)] at h
        cases hinstall : o.install (b.asked ++ [.installedVersions]) version with
        | some reason =>
          simp only [hinstall] at h
          cases h
          exact .failed hknown hlisted hallowed hinstall
        | none =>
          simp only [hinstall] at h
          cases h
          exact .installed hknown hlisted hallowed hinstall

theorem Ensured.remembers (h : Ensured settings version o b (.ok ()) b') :
    version ∈ b'.memory.installed := by
  cases h with
  | known hknown => exact hknown
  | listed => exact List.mem_concat_self
  | installed => exact List.mem_concat_self

end

end StandardCompiler

end BackendFuzz
