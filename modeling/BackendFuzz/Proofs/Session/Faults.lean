import BackendFuzz.Proofs.Session.Run

/-!
# Faults of a kind

A session faults within a kind in an outside if every fault that it can end with
there is of that kind. Sequences of such sessions fault within it too, so of a
session only its steps have to be looked at.
-/

namespace BackendFuzz

section
variable {α β ε : Type} {K : Fault → Prop}

def ErrorWithin (K : Fault → Prop) (e : Except Fault α) : Prop :=
  ∀ fault, e = .error fault → K fault

theorem errorWithin_ok (a : α) : ErrorWithin K (.ok a : Except Fault α) := by
  intro fault h
  cases h

theorem errorWithin_error {fault : Fault} (h : K fault) :
    ErrorWithin K (.error fault : Except Fault α) := by
  intro fault' h'
  cases h'
  exact h

theorem errorWithin_mapError {f : ε → Fault} (h : ∀ e, K (f e)) (x : Except ε α) :
    ErrorWithin K (x.mapError f) := by
  cases x with
  | error e => exact errorWithin_error (h e)
  | ok a => exact errorWithin_ok a

theorem errorWithin_bind {x : Except Fault α} {f : α → Except Fault β} (hx : ErrorWithin K x)
    (hf : ∀ a, ErrorWithin K (f a)) : ErrorWithin K (x >>= f) := by
  intro fault h
  cases x with
  | error fault' =>
    rw [error_bind] at h
    cases h
    exact hx fault rfl
  | ok a => exact hf a fault h

theorem errorWithin_mapM {f : α → Except Fault β} (h : ∀ a, ErrorWithin K (f a)) (l : List α) :
    ErrorWithin K (l.mapM f) := by
  induction l with
  | nil => exact errorWithin_ok []
  | cons a l ih =>
    rw [List.mapM_cons]
    exact errorWithin_bind (h a) fun b => errorWithin_bind ih fun bs => errorWithin_ok (b :: bs)

end

namespace Session

section
variable {α β : Type} {K K' : Fault → Prop} {o : Outside}

def FaultsWithin (K : Fault → Prop) (o : Outside) (s : Session α) : Prop :=
  ∀ b fault b', s.run o b = (.error fault, b') → K fault

theorem FaultsWithin.mono {s : Session α} (h : s.FaultsWithin K o)
    (hK : ∀ fault, K fault → K' fault) : s.FaultsWithin K' o :=
  fun b fault b' hrun => hK fault (h b fault b' hrun)

/-- A session that never faults. -/
theorem within_of_ok {s : Session α} (h : ∀ b, ∃ a, (s.run o b).1 = .ok a) :
    s.FaultsWithin K o := by
  intro b fault b' hrun
  obtain ⟨a, ha⟩ := h b
  rw [hrun] at ha
  cases ha

theorem within_pure (a : α) : (pure a : Session α).FaultsWithin K o :=
  within_of_ok fun _ => ⟨a, rfl⟩

theorem within_get : (get : Session Bench).FaultsWithin K o := within_of_ok fun b => ⟨b, rfl⟩

theorem within_read : (read : Session Outside).FaultsWithin K o := within_of_ok fun _ => ⟨o, rfl⟩

theorem within_modify (f : Bench → Bench) : (modify f : Session Unit).FaultsWithin K o :=
  within_of_ok fun _ => ⟨(), rfl⟩

theorem within_note (r : Request) : (note r).FaultsWithin K o :=
  within_of_ok fun b => ⟨b.asked, rfl⟩

theorem within_throw {fault : Fault} (h : K fault) :
    (throw fault : Session α).FaultsWithin K o := by
  intro b fault' b' hrun
  cases hrun
  exact h

theorem within_bind_of {x : Session α} {f : α → Session β} {Q : α → Prop}
    (hx : x.FaultsWithin K o) (hQ : x.Yields Q) (hf : ∀ a, Q a → (f a).FaultsWithin K o) :
    (x >>= f).FaultsWithin K o := by
  intro b fault b' h
  rcases run_bind_cases h with ⟨fault', hr, hfault⟩ | ⟨a, b₁, ha, h⟩
  · cases hr
    exact hx b fault b' hfault
  · exact hf a (hQ.of_run ha) b₁ fault b' h

theorem within_bind {x : Session α} {f : α → Session β} (hx : x.FaultsWithin K o)
    (hf : ∀ a, (f a).FaultsWithin K o) : (x >>= f).FaultsWithin K o :=
  within_bind_of hx (fun _ _ _ _ => trivial) fun a (_ : True) => hf a

theorem within_throw_bind {fault : Fault} (h : K fault) (f : α → Session β) :
    (throw fault >>= f).FaultsWithin K o := by
  intro b fault' b' hrun
  rw [run_bind_error (run_throw o b fault)] at hrun
  cases hrun
  exact h

theorem within_map {x : Session α} (hx : x.FaultsWithin K o) (f : α → β) :
    (f <$> x).FaultsWithin K o := by
  rw [map_eq_pure_bind]
  exact within_bind hx fun a => within_pure (f a)

theorem within_mapM {f : α → Session β} (h : ∀ a, (f a).FaultsWithin K o) (l : List α) :
    (l.mapM f).FaultsWithin K o := by
  induction l with
  | nil => exact within_pure []
  | cons a l ih =>
    rw [List.mapM_cons]
    exact within_bind (h a) fun b => within_bind ih fun bs => within_pure (b :: bs)

theorem within_forM {f : α → Session Unit} (h : ∀ a, (f a).FaultsWithin K o) (l : List α) :
    (l.forM f).FaultsWithin K o := by
  induction l with
  | nil => exact within_pure ()
  | cons a l ih => exact within_bind (h a) fun _ => ih

theorem within_ofExcept {e : Except Fault α} (h : ErrorWithin K e) :
    (ofExcept e).FaultsWithin K o := by
  intro b fault b' hrun
  rw [run_ofExcept] at hrun
  cases hrun
  exact h fault rfl

theorem within_tryCatch {x : Session α} {onFault : Fault → Session α} (hx : x.FaultsWithin K o)
    (h : ∀ fault, K fault → (onFault fault).FaultsWithin K' o) :
    (tryCatch x onFault).FaultsWithin K' o := by
  intro b fault b' hrun
  rw [run_tryCatch] at hrun
  rcases hr : x.run o b with ⟨fault' | a, b₁⟩
  · rw [hr] at hrun
    exact h fault' (hx b fault' b₁ hr) b₁ fault b' hrun
  · rw [hr] at hrun
    cases hrun

/-- What comes of a fault that is caught may go on with it. -/
theorem within_attempt_bind {x : Session α} {f : Except Fault α → Session β}
    (hx : x.FaultsWithin K o) (hf : ∀ r, ErrorWithin K r → (f r).FaultsWithin K' o) :
    (attempt x >>= f).FaultsWithin K' o := by
  intro b fault b' hrun
  rw [run_bind_ok (run_attempt o b x)] at hrun
  apply hf (x.run o b).1 _ (x.run o b).2 fault b' hrun
  intro fault' hfault
  apply hx b fault' (x.run o b).2
  rw [← hfault]

theorem within_ensuring {x : Session α} {last : Session Unit} (hx : x.FaultsWithin K o)
    (hlast : last.FaultsWithin K o) : (ensuring x last).FaultsWithin K o :=
  within_attempt_bind hx fun _ hr => within_bind hlast fun _ => within_ofExcept hr

end

end Session

end BackendFuzz
