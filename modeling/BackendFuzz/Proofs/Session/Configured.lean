import BackendFuzz.Proofs.Session.Faults

/-!
# Faults of configuration

A session is configured in an outside if no fault it can end with is one of the
arguments, settings, seeds, rules or tools. Steps that look at files, values or
other programs never end with such a fault; that they are put together is all
that has to be shown of a session.
-/

namespace BackendFuzz

/-- Whether a fault says that something is wrong with arguments, settings, seeds, rules or tools;
so do nothing to do and a parameter that no call can be planned for. -/
def Fault.isConfiguration : Fault → Bool
  | .nothingToDo _ | .configuration _ | .parameter _ => true
  | _ => false

theorem Fault.ofParse_unconfigured {onSyntax : Json.SyntaxFault → Fault}
    (h : ∀ fault, (onSyntax fault).isConfiguration = false) (fault : Json.ParseFault) :
    (Fault.ofParse onSyntax fault).isConfiguration = false := by
  cases fault with
  | malformed fault => exact h fault
  | tooLong count => rfl
  | tooDeep nest => rfl

def Unfaulted {α : Type} (e : Except Fault α) : Prop :=
  ∀ fault, e = .error fault → fault.isConfiguration = false

theorem unfaulted_ok {α : Type} (a : α) : Unfaulted (.ok a : Except Fault α) :=
  errorWithin_ok a

theorem unfaulted_error {α : Type} {fault : Fault} (h : fault.isConfiguration = false) :
    Unfaulted (.error fault : Except Fault α) :=
  errorWithin_error h

theorem unfaulted_mapError {α ε : Type} {f : ε → Fault} (h : ∀ e, (f e).isConfiguration = false)
    (x : Except ε α) : Unfaulted (x.mapError f) :=
  errorWithin_mapError h x

theorem unfaulted_bind {α β : Type} {x : Except Fault α} {f : α → Except Fault β}
    (hx : Unfaulted x) (hf : ∀ a, Unfaulted (f a)) : Unfaulted (x >>= f) :=
  errorWithin_bind hx hf

namespace Session

section
variable {α β : Type} {o : Outside}

def Configured (o : Outside) (s : Session α) : Prop :=
  ∀ b fault b', s.run o b = (.error fault, b') → fault.isConfiguration = false

/-! ## Sequences -/

theorem configured_pure (a : α) : (pure a : Session α).Configured o :=
  within_pure a

theorem configured_throw {fault : Fault} (h : fault.isConfiguration = false) :
    (throw fault : Session α).Configured o :=
  within_throw h

theorem configured_bind_of {x : Session α} {f : α → Session β} {Q : α → Prop}
    (hx : x.Configured o) (hQ : x.Yields Q) (hf : ∀ a, Q a → (f a).Configured o) :
    (x >>= f).Configured o :=
  within_bind_of hx hQ hf

theorem configured_bind {x : Session α} {f : α → Session β} (hx : x.Configured o)
    (hf : ∀ a, (f a).Configured o) : (x >>= f).Configured o :=
  configured_bind_of hx (fun _ _ _ _ => trivial) fun a (_ : True) => hf a

theorem configured_throw_bind {fault : Fault} (h : fault.isConfiguration = false)
    (f : α → Session β) : (throw fault >>= f).Configured o :=
  within_throw_bind h f

theorem configured_map {x : Session α} (hx : x.Configured o) (f : α → β) :
    (f <$> x).Configured o :=
  within_map hx f

theorem configured_mapM {f : α → Session β} (h : ∀ a, (f a).Configured o) (l : List α) :
    (l.mapM f).Configured o :=
  within_mapM h l

theorem configured_ofExcept {e : Except Fault α} (h : Unfaulted e) :
    (ofExcept e).Configured o :=
  within_ofExcept h

theorem configured_looking (e : Except Misuse α) : (looking e).Configured o :=
  configured_ofExcept (unfaulted_mapError (fun _ => rfl) e)

theorem configured_tryCatch {x : Session α} {onFault : Fault → Session α}
    (hx : x.Configured o)
    (h : ∀ fault, fault.isConfiguration = false → (onFault fault).Configured o) :
    (tryCatch x onFault).Configured o :=
  within_tryCatch hx h

/-- What comes of a fault that is caught may go on with it. -/
theorem configured_attempt_bind {x : Session α} {f : Except Fault α → Session β}
    (hx : x.Configured o) (hf : ∀ r, Unfaulted r → (f r).Configured o) :
    (attempt x >>= f).Configured o :=
  within_attempt_bind hx hf

theorem configured_ensuring {x : Session α} {last : Session Unit} (hx : x.Configured o)
    (hlast : last.Configured o) : (ensuring x last).Configured o :=
  within_ensuring hx hlast

/-! ## Steps -/

theorem configured_get : (get : Session Bench).Configured o :=
  within_get

theorem configured_read : (read : Session Outside).Configured o :=
  within_read

theorem configured_modify (f : Bench → Bench) : (modify f : Session Unit).Configured o :=
  within_modify f

theorem configured_note (r : Request) : (note r).Configured o :=
  within_note r

theorem configured_checkPath (path : Path) : (checkPath path).Configured o := by
  unfold checkPath
  split
  · exact configured_throw rfl
  · exact configured_pure ()

theorem configured_changeFiles (path : Path)
    (change : FileStore → Path → Except FileFault FileStore) :
    (changeFiles path change).Configured o := by
  apply configured_bind (configured_checkPath path)
  intro _
  apply configured_bind configured_get
  intro b
  split
  · exact configured_modify _
  · exact configured_throw rfl

theorem configured_furnish (path : Path) : (furnish path).Configured o := by
  apply configured_bind (configured_checkPath path)
  intro _
  apply configured_bind configured_get
  intro b
  apply configured_bind (configured_modify _)
  intro _
  split
  · exact configured_throw rfl
  · exact configured_pure ()

theorem configured_writeFile (path : Path) (content : ByteArray) :
    (writeFile path content).Configured o :=
  configured_changeFiles path fun files path => files.writeFile path content

theorem configured_encoded (text : String) : (encoded text).Configured o :=
  configured_ofExcept (unfaulted_mapError (fun _ => rfl) (Text.encode text))

theorem configured_readTextFile (path : Path) : (readTextFile path).Configured o := by
  apply configured_bind (configured_checkPath path)
  intro _
  apply configured_bind configured_get
  intro b
  split
  · exact configured_throw rfl
  · split
    · exact configured_pure _
    · exact configured_throw rfl

theorem configured_settled {program : String} {onTimeout : Session Ended}
    (h : onTimeout.Configured o) (reply : ProgramReply) :
    (settled program onTimeout reply).Configured o := by
  cases reply with
  | ended e => exact configured_pure e
  | timedOut => exact h
  | missing => exact configured_throw rfl
  | denied => exact configured_throw rfl
  | interrupted => exact configured_throw rfl

theorem configured_callBits (count : Nat) : (callBits count).Configured o := by
  intro b fault b' h
  cases h

theorem configured_pick (items : List α) : (pick items).Configured o := by
  apply configured_bind
  · intro b fault b' h
    cases h
  · intro index
    unfold itemAt
    dsimp only
    split
    · exact configured_pure _
    · exact configured_throw rfl

/-! ## Where a fault comes from -/

def EndsWith (s : Session α) (o : Outside) (b : Bench) (fault : Fault) : Prop :=
  ∃ b', s.run o b = (.error fault, b')

variable {b : Bench} {fault : Fault}

/-- A traversal ends with a fault where the first of its items does. -/
theorem endsWith_mapM_iff {f : α → Session β} {l : List α} : (l.mapM f).EndsWith o b fault ↔
    ∃ earlier a later results b₁, l = earlier ++ a :: later ∧
      (earlier.mapM f).run o b = (.ok results, b₁) ∧ (f a).EndsWith o b₁ fault := by
  induction l generalizing b with
  | nil =>
    constructor
    · rintro ⟨b', h⟩
      cases h
    · rintro ⟨earlier, a, later, results, b₁, hl, -⟩
      exact absurd hl.symm (by simp)
  | cons a l ih =>
    constructor
    · rintro ⟨b', h⟩
      rw [List.mapM_cons] at h
      rcases run_bind_cases h with ⟨fault', hr, ha⟩ | ⟨c, b₁, ha, h⟩
      · cases hr
        exact ⟨[], a, l, [], b, rfl, rfl, b', ha⟩
      · rcases run_bind_cases h with ⟨fault', hr, hl⟩ | ⟨cs, b₂, hl, h⟩
        · cases hr
          obtain ⟨earlier, a', later, results, b₂, rfl, hearlier, hfault⟩ := ih.mp ⟨b', hl⟩
          refine ⟨a :: earlier, a', later, c :: results, b₂, rfl, ?_, hfault⟩
          rw [List.mapM_cons, run_bind_ok ha, run_bind_ok hearlier, run_pure]
        · cases h
    · rintro ⟨earlier, a', later, results, b₁, hl, hearlier, hfault⟩
      rw [List.mapM_cons]
      cases earlier with
      | nil =>
        cases hl
        cases hearlier
        obtain ⟨b', hfault⟩ := hfault
        exact ⟨b', run_bind_error hfault _⟩
      | cons e earlier =>
        cases hl
        rw [List.mapM_cons] at hearlier
        obtain ⟨c, b₂, ha, hearlier⟩ := run_bind_ok_inv hearlier
        obtain ⟨cs, b₃, hrest, hearlier⟩ := run_bind_ok_inv hearlier
        cases hearlier
        obtain ⟨b', hl⟩ := ih.mpr ⟨earlier, a', later, cs, b₁, rfl, hrest, hfault⟩
        exact ⟨b', by rw [run_bind_ok ha, run_bind_error hl]⟩

section
variable (hf : fault.isConfiguration = true)
include hf

theorem Configured.not_endsWith {s : Session α} (h : s.Configured o) : ¬ s.EndsWith o b fault := by
  rintro ⟨b', hrun⟩
  have hnot := h b fault b' hrun
  rw [hf] at hnot
  cases hnot

theorem endsWith_bind_first_iff {x : Session α} {f : α → Session β}
    (h : ∀ a, (f a).Configured o) : (x >>= f).EndsWith o b fault ↔ x.EndsWith o b fault := by
  constructor
  · rintro ⟨b', hrun⟩
    rcases run_bind_cases hrun with ⟨fault', hr, hx⟩ | ⟨a, b₁, -, hfault⟩
    · cases hr
      exact ⟨b', hx⟩
    · exact absurd ⟨b', hfault⟩ ((h a).not_endsWith hf)
  · rintro ⟨b', hx⟩
    exact ⟨b', run_bind_error hx f⟩

theorem endsWith_bind_later_iff {x : Session α} {f : α → Session β} (hx : x.Configured o) :
    (x >>= f).EndsWith o b fault ↔
      ∃ a b₁, x.run o b = (.ok a, b₁) ∧ (f a).EndsWith o b₁ fault := by
  constructor
  · rintro ⟨b', hrun⟩
    rcases run_bind_cases hrun with ⟨fault', hr, hfault⟩ | ⟨a, b₁, ha, hfault⟩
    · cases hr
      exact absurd ⟨b', hfault⟩ (hx.not_endsWith hf)
    · exact ⟨a, b₁, ha, b', hfault⟩
  · rintro ⟨a, b₁, ha, b', hfault⟩
    exact ⟨b', by rw [run_bind_ok ha, hfault]⟩

theorem endsWith_looking_bind_iff {e : Except Misuse α} {f : α → Session β} :
    (looking e >>= f).EndsWith o b fault ↔ ∃ a, e = .ok a ∧ (f a).EndsWith o b fault := by
  cases e with
  | error cause =>
    refine iff_of_false ?_ ?_
    · exact (configured_throw_bind rfl f).not_endsWith hf
    · rintro ⟨a, h, -⟩
      cases h
  | ok a => simp [looking, mapError_ok, ofExcept]

end

end

end Session

end BackendFuzz
