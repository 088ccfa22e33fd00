import Mathlib.Data.List.Forall2
import BackendFuzz.Session

/-!
# Runs of sessions

What the steps that sessions are made of do to outcome and bench, so that a
session is followed step by step without its monads.
-/

namespace BackendFuzz

theorem ok_bind {α β ε : Type} (a : α) (f : α → Except ε β) : (Except.ok a >>= f) = f a := rfl

theorem error_bind {α β ε : Type} (e : ε) (f : α → Except ε β) :
    (Except.error e >>= f) = .error e := rfl

theorem bind_ok_inv {α β ε : Type} {x : Except ε α} {f : α → Except ε β} {b : β}
    (h : x >>= f = .ok b) : ∃ a, x = .ok a ∧ f a = .ok b := by
  cases x with
  | error e => cases h
  | ok a => exact ⟨a, rfl, h⟩

theorem mapM_ok_iff {α β ε : Type} {f : α → Except ε β} {l : List α} {l' : List β} :
    l.mapM f = .ok l' ↔ List.Forall₂ (fun a b => f a = .ok b) l l' := by
  induction l generalizing l' with
  | nil => cases l' <;> simp [pure, Except.pure]
  | cons a l ih =>
    rw [List.mapM_cons]
    constructor
    · intro h
      obtain ⟨b, hb, h⟩ := bind_ok_inv h
      obtain ⟨bs, hbs, h⟩ := bind_ok_inv h
      cases h
      exact .cons hb (ih.mp hbs)
    · rintro (_ | ⟨hb, hbs⟩)
      rw [hb, ok_bind, ih.mpr hbs]
      rfl

theorem mapError_ok {α ε ε' : Type} (f : ε → ε') (a : α) :
    (Except.ok a : Except ε α).mapError f = .ok a := rfl

theorem mapError_error {α ε ε' : Type} (f : ε → ε') (e : ε) :
    (Except.error e : Except ε α).mapError f = .error (f e) := rfl

theorem mapError_ok_iff {α ε ε' : Type} {f : ε → ε'} {x : Except ε α} {a : α} :
    x.mapError f = .ok a ↔ x = .ok a := by
  cases x <;> simp [Except.mapError]

namespace Session

section
variable {α β : Type} (o : Outside) (b : Bench)

/-! ## Sequences and faults -/

@[simp] theorem run_pure (a : α) : (pure a : Session α).run o b = (.ok a, b) := rfl

@[simp] theorem run_throw (fault : Fault) : (throw fault : Session α).run o b = (.error fault, b) := rfl

theorem run_bind (x : Session α) (f : α → Session β) : (x >>= f).run o b =
    match x.run o b with
    | (.ok a, b') => (f a).run o b'
    | (.error fault, b') => (.error fault, b') := by
  simp only [run, ReaderT.run_bind, ExceptT.run_bind, StateT.run_bind]
  rcases StateT.run (ExceptT.run (ReaderT.run x o)) b with ⟨r, b'⟩
  cases r <;> rfl

variable {o b} {x : Session α} {b' : Bench}

theorem run_bind_ok {a : α} (h : x.run o b = (.ok a, b')) (f : α → Session β) :
    (x >>= f).run o b = (f a).run o b' := by rw [run_bind, h]

theorem run_bind_error {fault : Fault} (h : x.run o b = (.error fault, b')) (f : α → Session β) :
    (x >>= f).run o b = (.error fault, b') := by rw [run_bind, h]

theorem run_bind_ok_inv {f : α → Session β} {c : β} {b'' : Bench}
    (h : (x >>= f).run o b = (.ok c, b'')) :
    ∃ a b', x.run o b = (.ok a, b') ∧ (f a).run o b' = (.ok c, b'') := by
  rw [run_bind] at h
  rcases hx : x.run o b with ⟨fault | a, b'⟩
  · rw [hx] at h; cases h
  · rw [hx] at h; exact ⟨a, b', rfl, h⟩

theorem run_bind_cases {f : α → Session β} {r : Except Fault β} {b'' : Bench}
    (h : (x >>= f).run o b = (r, b'')) :
    (∃ fault, r = .error fault ∧ x.run o b = (.error fault, b'')) ∨
      ∃ a b', x.run o b = (.ok a, b') ∧ (f a).run o b' = (r, b'') := by
  rw [run_bind] at h
  rcases hx : x.run o b with ⟨fault | a, b'⟩
  · rw [hx] at h; cases h; exact Or.inl ⟨fault, rfl, rfl⟩
  · rw [hx] at h; exact Or.inr ⟨a, b', rfl, h⟩

theorem run_map_ok {a : α} (h : x.run o b = (.ok a, b')) (f : α → β) :
    (f <$> x).run o b = (.ok (f a), b') := by rw [map_eq_pure_bind, run_bind_ok h, run_pure]

theorem run_map_error {fault : Fault} (h : x.run o b = (.error fault, b')) (f : α → β) :
    (f <$> x).run o b = (.error fault, b') := by rw [map_eq_pure_bind, run_bind_error h]

variable (o b) (x)

theorem run_tryCatch (onFault : Fault → Session α) : (tryCatch x onFault).run o b =
    match x.run o b with
    | (.ok a, b') => (.ok a, b')
    | (.error fault, b') => (onFault fault).run o b' := by
  simp only [run, tryCatch, tryCatchThe, MonadExceptOf.tryCatch, ReaderT.run]
  rcases h : StateT.run (ExceptT.run (x o)) b with ⟨r, b'⟩
  simp only [ExceptT.run] at h
  cases r <;> simp [ExceptT.tryCatch, ExceptT.mk, StateT.run_bind, ExceptT.run, h] <;> rfl

@[simp] theorem run_attempt : (attempt x).run o b = (.ok (x.run o b).1, (x.run o b).2) := by
  unfold attempt
  rw [run_tryCatch]
  rcases h : x.run o b with ⟨_ | a, b'⟩
  · rw [run_map_error h]; rfl
  · rw [run_map_ok h]

@[simp] theorem run_ofExcept (e : Except Fault α) : (ofExcept e).run o b = (e, b) := by
  cases e <;> rfl

@[simp] theorem run_looking (e : Except Misuse α) :
    (looking e).run o b = (e.mapError .misuse, b) := run_ofExcept o b _

theorem run_ensuring (f : Bench → Bench) : (ensuring x (modify f)).run o b =
    ((x.run o b).1, f (x.run o b).2) := by
  unfold ensuring
  rw [run_bind_ok (run_attempt o b x)]
  exact run_ofExcept o _ _

/-! ## Steps on the bench -/

@[simp] theorem run_read : (read : Session Outside).run o b = (.ok o, b) := rfl

@[simp] theorem run_get : (get : Session Bench).run o b = (.ok b, b) := rfl

@[simp] theorem run_modify (f : Bench → Bench) :
    (modify f : Session Unit).run o b = (.ok (), f b) := rfl

@[simp] theorem run_note (r : Request) :
    (note r).run o b = (.ok b.asked, { b with asked := b.asked ++ [r] }) := rfl

@[simp] theorem run_log (event : LogEvent) :
    (log event).run o b = (.ok (), { b with events := b.events ++ [event] }) := rfl

@[simp] theorem run_debug (component : Component) (message : String) :
    (debug component message).run o b =
      (.ok (), { b with events := b.events ++ [{ level := .debug, component, message }] }) := rfl

@[simp] theorem run_info (component : Component) (message : String) :
    (info component message).run o b =
      (.ok (), { b with events := b.events ++ [{ level := .info, component, message }] }) := rfl

@[simp] theorem run_printLine (line : String) :
    (printLine line).run o b = (.ok (), { b with printed := b.printed ++ [line] }) := rfl

@[simp] theorem run_readClock :
    readClock.run o b = (.ok (o.clock b.readings), { b with readings := b.readings + 1 }) := rfl

theorem run_changeFiles {path : Path} {change : FileStore → Path → Except FileFault FileStore}
    {files : FileStore} (hp : path.flaw? = none) (h : change b.files path = .ok files) :
    (changeFiles path change).run o b = (.ok (), { b with files }) := by
  unfold changeFiles checkPath
  simp only [hp, pure_bind, run_bind, run_get, h, run_modify]

theorem run_changeFiles_inv {path : Path} {change : FileStore → Path → Except FileFault FileStore}
    {b' : Bench} (h : (changeFiles path change).run o b = (.ok (), b')) :
    ∃ files, change b.files path = .ok files ∧ b' = { b with files } := by
  unfold changeFiles checkPath at h
  cases hp : path.flaw? with
  | some flaw => simp only [hp, run_bind, run_throw] at h; cases h
  | none =>
    simp only [hp, pure_bind, run_bind, run_get] at h
    cases hc : change b.files path with
    | error fault => rw [hc] at h; cases h
    | ok files => rw [hc] at h; cases h; exact ⟨files, rfl, rfl⟩

theorem run_furnish_flawed {path : Path} {flaw : Path.Flaw} (hp : path.flaw? = some flaw) :
    (furnish path).run o b = (.error (.path flaw), b) := by
  unfold furnish checkPath
  simp only [hp, run_bind, run_throw]

theorem run_furnish {path : Path} {files : FileStore} (hp : path.flaw? = none)
    (h : b.files.furnish path = (files, none)) :
    (furnish path).run o b = (.ok (), { b with files }) := by
  unfold furnish checkPath
  simp only [hp, pure_bind, run_bind, run_get, h, run_modify, run_pure]

theorem run_furnish_refused {path : Path} {files : FileStore} {fault : FileFault}
    (hp : path.flaw? = none) (h : b.files.furnish path = (files, some fault)) :
    (furnish path).run o b = (.error (.file fault), { b with files }) := by
  unfold furnish checkPath
  simp only [hp, pure_bind, run_bind, run_get, h, run_modify, run_throw]

theorem run_furnish_inv {path : Path} {b' : Bench}
    (h : (furnish path).run o b = (.ok (), b')) :
    ∃ files, b.files.furnish path = (files, none) ∧ b' = { b with files } := by
  cases hp : path.flaw? with
  | some flaw => rw [run_furnish_flawed o b hp] at h; cases h
  | none =>
    rcases hf : b.files.furnish path with ⟨files, _ | fault⟩
    · rw [run_furnish o b hp hf] at h; cases h; exact ⟨files, rfl, rfl⟩
    · rw [run_furnish_refused o b hp hf] at h; cases h

theorem run_encoded {text : String} {bytes : ByteArray} (h : Text.encode text = .ok bytes) :
    (encoded text).run o b = (.ok bytes, b) := by
  unfold encoded
  rw [run_ofExcept, h]; rfl

/-! ## Values of sessions -/

def Yields (s : Session α) (Q : α → Prop) : Prop :=
  ∀ (o : Outside) (b : Bench) (a : α), (s.run o b).1 = .ok a → Q a

theorem Yields.mono {s : Session α} {P Q : α → Prop} (h : s.Yields P) (hPQ : ∀ a, P a → Q a) :
    s.Yields Q := fun o b a ha => hPQ a (h o b a ha)

theorem Yields.of_run {s : Session α} {Q : α → Prop} (h : s.Yields Q) {o : Outside} {b b' : Bench}
    {a : α} (hrun : s.run o b = (.ok a, b')) : Q a := by
  apply h o b
  rw [hrun]

theorem yields_pure {a : α} {Q : α → Prop} (h : Q a) : (pure a : Session α).Yields Q := by
  intro o b a' ha
  cases ha
  exact h

theorem yields_throw (fault : Fault) {Q : α → Prop} : (throw fault : Session α).Yields Q := by
  intro o b a ha
  cases ha

theorem yields_ofExcept {e : Except Fault α} {Q : α → Prop} (h : ∀ a, e = .ok a → Q a) :
    (ofExcept e).Yields Q := by
  intro o b a ha
  rw [run_ofExcept] at ha
  exact h a ha

theorem yields_bind_of {x : Session α} {f : α → Session β} {P : α → Prop} {Q : β → Prop}
    (hx : x.Yields P) (hf : ∀ a, P a → (f a).Yields Q) : (x >>= f).Yields Q := by
  intro o b c hc
  rw [run_bind] at hc
  rcases h : x.run o b with ⟨fault | a, b'⟩
  · rw [h] at hc; cases hc
  · rw [h] at hc; exact hf a (hx o b a (by rw [h])) o b' c hc

theorem yields_bind {x : Session α} {f : α → Session β} {Q : β → Prop}
    (hf : ∀ a, (f a).Yields Q) : (x >>= f).Yields Q :=
  yields_bind_of (fun _ _ _ _ => trivial) fun a (_ : True) => hf a

theorem yields_attempt {x : Session α} {Q : α → Prop} (hx : x.Yields Q) :
    (attempt x).Yields fun r => ∀ a, r = .ok a → Q a := by
  intro o b r hr a ha
  rw [run_attempt] at hr
  cases hr
  exact hx o b a ha

theorem yields_ensuring {x : Session α} {Q : α → Prop} (hx : x.Yields Q) (last : Session Unit) :
    (ensuring x last).Yields Q :=
  yields_bind_of (yields_attempt hx) fun _ hr => yields_bind fun _ => yields_ofExcept hr

theorem yields_mapM {f : α → Session β} {Q : β → Prop} {l : List α}
    (h : ∀ a ∈ l, (f a).Yields Q) : (l.mapM f).Yields fun bs => ∀ b ∈ bs, Q b := by
  induction l with
  | nil => exact yields_pure (List.forall_mem_nil _)
  | cons a l ih =>
    rw [List.forall_mem_cons] at h
    rw [List.mapM_cons]
    exact yields_bind_of h.1 fun b hb => yields_bind_of (ih h.2) fun bs hbs =>
      yields_pure (List.forall_mem_cons.mpr ⟨hb, hbs⟩)

theorem yields_looking {e : Except Misuse α} {Q : α → Prop} (h : ∀ a, e = .ok a → Q a) :
    (looking e).Yields Q := by
  intro o b a ha
  rw [run_looking] at ha
  cases e with
  | error cause => cases ha
  | ok a' => cases ha; exact h a rfl

end

end Session

end BackendFuzz
