import BackendFuzz.Proofs.Session.Tree

/-!
# What sessions leave

A relation between the benches before and after a session, whether or not it
ends in a fault. If the relation is a preorder, it holds of a sequence as soon as
it holds of its steps.
-/

namespace BackendFuzz

namespace Session

variable {α β : Type}

def Leaves (R : Bench → Bench → Prop) (s : Session α) : Prop := ∀ o b, R b (s.run o b).2

theorem Leaves.mono {R R' : Bench → Bench → Prop} {s : Session α} (h : s.Leaves R)
    (hR : ∀ b b', R b b' → R' b b') : s.Leaves R' := fun o b => hR _ _ (h o b)

theorem Leaves.of_run {R : Bench → Bench → Prop} {s : Session α} (h : s.Leaves R) {o : Outside}
    {b b' : Bench} {r : Except Fault α} (hr : s.run o b = (r, b')) : R b b' := by
  have hb := h o b
  rwa [hr] at hb

theorem run_changeFiles_cases (o : Outside) (b : Bench) (path : Path)
    (change : FileStore → Path → Except FileFault FileStore) :
    (∃ fault, (changeFiles path change).run o b = (.error fault, b) ∧ ∀ p, fault ≠ .process p) ∨
    ∃ files, change b.files path = .ok files ∧
      (changeFiles path change).run o b = (.ok (), { b with files }) := by
  cases hp : path.flaw? with
  | some flaw =>
    refine Or.inl ⟨.path flaw, ?_, by simp⟩
    simp only [changeFiles, checkPath, hp, run_bind, run_throw]
  | none =>
    cases hc : change b.files path with
    | ok files => exact Or.inr ⟨files, rfl, run_changeFiles o b hp hc⟩
    | error fault =>
      refine Or.inl ⟨.file fault, ?_, by simp⟩
      simp only [changeFiles, checkPath, hp, pure_bind, run_bind, run_get, hc, run_throw]

/-- Directories are made whether or not one of them is refused. -/
theorem run_furnish_cases (o : Outside) (b : Bench) (path : Path) :
    (∃ fault files, (furnish path).run o b = (.error fault, { b with files }) ∧
      (files = b.files ∨ files = (b.files.furnish path).1) ∧ ∀ p, fault ≠ .process p) ∨
    ∃ files, b.files.furnish path = (files, none) ∧
      (furnish path).run o b = (.ok (), { b with files }) := by
  cases hp : path.flaw? with
  | some flaw => exact Or.inl ⟨.path flaw, b.files, run_furnish_flawed o b hp, Or.inl rfl, by simp⟩
  | none =>
    rcases hf : b.files.furnish path with ⟨files, _ | fault⟩
    · exact Or.inr ⟨files, rfl, run_furnish o b hp hf⟩
    · exact Or.inl ⟨.file fault, files, run_furnish_refused o b hp hf, Or.inr rfl, by simp⟩

theorem run_furnish_there (o : Outside) {b : Bench} {path : Path} {d : Place}
    (hl : b.files.locate path = .ok d) (hd : b.files.at? d = some .directory) :
    ∃ r, (furnish path).run o b = (r, b) := by
  have hthere := FileStore.furnish_of_there hl hd
  rcases run_furnish_cases o b path with ⟨fault, files, hr, hf, -⟩ | ⟨files, hf, hr⟩
  · rw [hthere, or_self] at hf
    subst hf
    exact ⟨.error fault, hr⟩
  · cases hthere.symm.trans hf
    exact ⟨.ok (), hr⟩

section
variable {R : Bench → Bench → Prop} [IsPreorder Bench R]

/-! ## Sequences -/

theorem leaves_pure (a : α) : (pure a : Session α).Leaves R := fun _ b => refl_of R b

theorem leaves_throw (fault : Fault) : (throw fault : Session α).Leaves R := fun _ b => refl_of R b

theorem leaves_run_bind {o : Outside} {b c : Bench} {x : Session α} {f : α → Session β}
    (hx : R c (x.run o b).2) (hf : ∀ a, (f a).Leaves R) : R c ((x >>= f).run o b).2 := by
  rw [run_bind]
  rcases hr : x.run o b with ⟨fault | a, b'⟩
  · rw [hr] at hx; exact hx
  · rw [hr] at hx; exact trans_of R hx (hf a o b')

theorem leaves_bind {x : Session α} {f : α → Session β} (hx : x.Leaves R)
    (hf : ∀ a, (f a).Leaves R) : (x >>= f).Leaves R := fun o b => leaves_run_bind (hx o b) hf

theorem leaves_bind_of {x : Session α} {f : α → Session β} {P : α → Prop} (hx : x.Leaves R)
    (hy : x.Yields P) (hf : ∀ a, P a → (f a).Leaves R) : (x >>= f).Leaves R := by
  intro o b
  have hb := hx o b
  rw [run_bind]
  rcases hr : x.run o b with ⟨fault | a, b'⟩
  · rw [hr] at hb; exact hb
  · rw [hr] at hb; exact trans_of R hb (hf a (hy o b a (by rw [hr])) o b')

theorem leaves_throw_bind (fault : Fault) (f : α → Session β) : (throw fault >>= f).Leaves R := by
  intro o b
  rw [run_bind_error (run_throw o b fault)]
  exact refl_of R b

theorem leaves_map {x : Session α} (hx : x.Leaves R) (f : α → β) : (f <$> x).Leaves R := by
  rw [map_eq_pure_bind]
  exact leaves_bind hx fun a => leaves_pure (f a)

theorem leaves_ofExcept (e : Except Fault α) : (ofExcept e).Leaves R := by
  cases e with
  | ok a => exact leaves_pure a
  | error fault => exact leaves_throw fault

theorem leaves_looking (e : Except Misuse α) : (looking e).Leaves R := leaves_ofExcept _

theorem leaves_read : (read : Session Outside).Leaves R := fun _ b => refl_of R b

theorem leaves_get : (get : Session Bench).Leaves R := fun _ b => refl_of R b

omit [IsPreorder Bench R] in
theorem leaves_modify {f : Bench → Bench} (h : ∀ b, R b (f b)) :
    (modify f : Session Unit).Leaves R := fun _ b => h b

theorem leaves_mapM_mem {f : α → Session β} {l : List α} (h : ∀ a ∈ l, (f a).Leaves R) :
    (l.mapM f).Leaves R := by
  induction l with
  | nil => exact leaves_pure []
  | cons a l ih =>
    rw [List.forall_mem_cons] at h
    rw [List.mapM_cons]
    exact leaves_bind h.1 fun _ => leaves_bind (ih h.2) fun _ => leaves_pure _

theorem leaves_mapM {f : α → Session β} (h : ∀ a, (f a).Leaves R) (l : List α) :
    (l.mapM f).Leaves R := leaves_mapM_mem fun a _ => h a

theorem leaves_forM {f : α → Session Unit} (h : ∀ a, (f a).Leaves R) (l : List α) :
    (l.forM f).Leaves R := by
  induction l with
  | nil => exact leaves_pure ()
  | cons a l ih => exact leaves_bind (h a) fun _ => ih

theorem leaves_tryCatch {x : Session α} {onFault : Fault → Session α} (hx : x.Leaves R)
    (hf : ∀ fault, (onFault fault).Leaves R) : (tryCatch x onFault).Leaves R := by
  intro o b
  have hb := hx o b
  rw [run_tryCatch]
  rcases hr : x.run o b with ⟨fault | a, b'⟩
  · rw [hr] at hb; exact trans_of R hb (hf fault o b')
  · rw [hr] at hb; exact hb

omit [IsPreorder Bench R] in
theorem leaves_attempt {x : Session α} (hx : x.Leaves R) : (attempt x).Leaves R := by
  intro o b
  rw [run_attempt]
  exact hx o b

theorem leaves_checkPath (path : Path) : (checkPath path).Leaves R := by
  unfold checkPath
  split
  · exact leaves_throw _
  · exact leaves_pure _

theorem leaves_run_changeFiles {change : FileStore → Path → Except FileFault FileStore}
    {path : Path} (o : Outside) {b : Bench}
    (h : ∀ files, change b.files path = .ok files → R b { b with files }) :
    R b ((changeFiles path change).run o b).2 := by
  rcases run_changeFiles_cases o b path change with ⟨fault, hr, -⟩ | ⟨files, hc, hr⟩
  · rw [hr]; exact refl_of R b
  · rw [hr]; exact h files hc

theorem leaves_run_furnish {path : Path} (o : Outside) {b : Bench}
    (h : R b { b with files := (b.files.furnish path).1 }) : R b ((furnish path).run o b).2 := by
  rcases run_furnish_cases o b path with ⟨fault, files, hr, rfl | rfl, -⟩ | ⟨files, hf, hr⟩
  · rw [hr]; exact refl_of R b
  · rw [hr]; exact h
  · rw [hf] at h; rw [hr]; exact h

theorem leaves_encoded (text : String) : (encoded text).Leaves R := leaves_ofExcept _

theorem leaves_settled (program : String) {onTimeout : Session Ended} (h : onTimeout.Leaves R)
    (reply : ProgramReply) : (settled program onTimeout reply).Leaves R := by
  cases reply with
  | ended e => exact leaves_pure e
  | timedOut => exact h
  | _ => exact leaves_throw _

end

end Session

/-! ## Requests and files -/

instance : IsPreorder FileStore fun _ _ => True where
  refl _ := trivial
  trans _ _ _ _ _ := trivial

inductive Role where
  /-- A value of a call. -/
  | draw
  | compile
  | run
  | other
  deriving DecidableEq

def Request.role : Request → Role
  | .callBits _ => .draw
  | .compiler .. => .compile
  | .eofCompiler .. => .compile
  | .machine .. => .run
  | _ => .other

/-- What lies between two benches of a session that makes requests of a kind and changes files as
told, but neither prints nor reads the clock, nor forgets a version. -/
structure Bench.Left (K : Request → Prop) (F : FileStore → FileStore → Prop) (b b' : Bench) :
    Prop where
  asked : ∃ more, b'.asked = b.asked ++ more ∧ ∀ r ∈ more, K r
  files : F b.files b'.files
  printed : b'.printed = b.printed
  readings : b'.readings = b.readings
  versions : ∀ path version, b.memory.versions.lookup path = some version →
    b'.memory.versions.lookup path = some version

namespace Bench

variable {K K' : Request → Prop} {F F' : FileStore → FileStore → Prop} {b b' : Bench}

theorem Left.mono (h : b.Left K F b') (hK : ∀ r, K r → K' r) (hF : ∀ s s', F s s' → F' s s') :
    b.Left K' F' b' where
  asked := by
    obtain ⟨more, he, hm⟩ := h.asked
    exact ⟨more, he, fun r hr => hK r (hm r hr)⟩
  files := hF _ _ h.files
  printed := h.printed
  readings := h.readings
  versions := h.versions

theorem Left.asked_eq (h : b.Left (fun _ => False) F b') : b'.asked = b.asked := by
  obtain ⟨more, he, hm⟩ := h.asked
  rw [he, List.eq_nil_iff_forall_not_mem.mpr hm, List.append_nil]

variable [IsPreorder FileStore F]

instance (K : Request → Prop) (F : FileStore → FileStore → Prop) [IsPreorder FileStore F] :
    IsPreorder Bench (Left K F) where
  refl b := ⟨⟨[], by simp, by simp⟩, refl_of F b.files, rfl, rfl, fun _ _ h => h⟩
  trans b b' b'' h h' := by
    refine ⟨?_, trans_of F h.files h'.files, h'.printed.trans h.printed,
      h'.readings.trans h.readings, fun path version hv => h'.versions _ _ (h.versions _ _ hv)⟩
    obtain ⟨more, he, hm⟩ := h.asked
    obtain ⟨more', he', hm'⟩ := h'.asked
    refine ⟨more ++ more', by rw [he', he, List.append_assoc], ?_⟩
    intro r hr
    exact (List.mem_append.mp hr).elim (hm r) (hm' r)

theorem left_asked {r : Request} (h : K r) (b : Bench) :
    b.Left K F { b with asked := b.asked ++ [r] } :=
  ⟨⟨[r], rfl, by simpa using h⟩, refl_of F _, rfl, rfl, fun _ _ h => h⟩

theorem left_events (b : Bench) (events : List LogEvent) : b.Left K F { b with events } :=
  ⟨⟨[], by simp, by simp⟩, refl_of F _, rfl, rfl, fun _ _ h => h⟩

theorem left_installed (b : Bench) (installed : List String) :
    b.Left K F { b with memory := { b.memory with installed } } :=
  ⟨⟨[], by simp, by simp⟩, refl_of F _, rfl, rfl, fun _ _ h => h⟩

/-- A version is added at the end, where it hides none that is known. -/
theorem left_version (b : Bench) (entry : String × String) :
    b.Left K F { b with memory := { b.memory with versions := b.memory.versions ++ [entry] } } := by
  refine ⟨⟨[], by simp, by simp⟩, refl_of F _, rfl, rfl, fun path version h => ?_⟩
  simp [List.lookup_append, h]

omit [IsPreorder FileStore F] in
theorem left_files {files : FileStore} (h : F b.files files) : b.Left K F { b with files } :=
  ⟨⟨[], by simp, by simp⟩, h, rfl, rfl, fun _ _ h => h⟩

end Bench

namespace Session

section
variable {α : Type} {K : Request → Prop} {F : FileStore → FileStore → Prop}
  [IsPreorder FileStore F]

theorem leaves_log (event : LogEvent) : (log event).Leaves (Bench.Left K F) :=
  leaves_modify fun b => b.left_events _

theorem leaves_debug (component : Component) (message : String) :
    (debug component message).Leaves (Bench.Left K F) := leaves_log _

theorem leaves_info (component : Component) (message : String) :
    (info component message).Leaves (Bench.Left K F) := leaves_log _

theorem leaves_note {r : Request} (h : K r) : (note r).Leaves (Bench.Left K F) :=
  fun _ b => Bench.left_asked h b

theorem leaves_changeFiles {path : Path} {change : FileStore → Path → Except FileFault FileStore}
    (h : ∀ s s', change s path = .ok s' → F s s') :
    (changeFiles path change).Leaves (Bench.Left K F) :=
  fun o b => leaves_run_changeFiles o fun _ hc => Bench.left_files (h b.files _ hc)

theorem leaves_furnish {path : Path} (h : ∀ s : FileStore, F s (s.furnish path).1) :
    (furnish path).Leaves (Bench.Left K F) :=
  fun o b => leaves_run_furnish o (Bench.left_files (h b.files))

theorem leaves_callBits (count : Nat) (h : K (.callBits count)) :
    (callBits count).Leaves (Bench.Left K F) :=
  leaves_bind (leaves_note h) fun _ => leaves_bind leaves_read fun _ => leaves_pure _

theorem leaves_sessionBits (count : Nat) (h : K (.sessionBits count)) :
    (sessionBits count).Leaves (Bench.Left K F) :=
  leaves_bind (leaves_note h) fun _ => leaves_bind leaves_read fun _ => leaves_pure _

theorem leaves_pick (items : List α) (h : K (.choice items.length)) :
    (pick items).Leaves (Bench.Left K F) := by
  have hchoice : (choice items.length).Leaves (Bench.Left K F) :=
    leaves_bind (leaves_note h) fun _ => leaves_bind leaves_read fun _ => leaves_pure _
  refine leaves_bind hchoice fun index => ?_
  unfold itemAt
  dsimp only
  split
  · exact leaves_pure _
  · exact leaves_throw _

end

/-- A program with a directory of its own clears it away, whether or not it faults. -/
theorem leaves_withScratch {α : Type} {K : Request → Prop} {directory : Path} {p : Place}
    (hl : ∀ s : FileStore, s.locate directory = .ok p) {body : Session α}
    (hb : body.Leaves (Bench.Left K (FileStore.OnlyWithin p))) :
    (withScratch directory body).Leaves (Bench.Left K (FileStore.Cleared p)) := by
  intro o b
  unfold withScratch
  rcases run_changeFiles_cases o b directory FileStore.makeDirectory with
    ⟨fault, hr, -⟩ | ⟨files, hc, hr⟩
  · rw [run_bind_error hr]
    exact refl_of (Bench.Left K (FileStore.Cleared p)) b
  · obtain ⟨d, hd, hn, rfl⟩ := FileStore.makeDirectory_eq hc
    obtain rfl : p = d := Except.ok.inj ((hl b.files).symm.trans hd)
    rw [run_bind_ok hr, run_ensuring]
    have hbody := hb o { b with files := b.files.put p .directory }
    refine ⟨hbody.asked, ?_, hbody.printed, hbody.readings, hbody.versions⟩
    exact FileStore.cleared_scratch (FileStore.names_ne_nil_of_absent hn) hn hbody.files (hl _)

end Session

end BackendFuzz
