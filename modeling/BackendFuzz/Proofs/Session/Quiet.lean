import BackendFuzz.Proofs.Session.Frame

/-!
# Quiet sessions

A quiet session never asks for the machine, never reads the clock, and leaves the
file at a place as it was, whether or not it ends in a fault.
-/

namespace BackendFuzz

def Request.isMachine : Request → Bool
  | .machine .. => true
  | _ => false

theorem Request.isMachine_iff (r : Request) : r.isMachine = true ↔ r.role = .run := by
  cases r <;> simp [isMachine, role]

structure Bench.Quiet (place : Place) (b b' : Bench) : Prop where
  asked : ∃ more, b'.asked = b.asked ++ more ∧ ∀ r ∈ more, r.isMachine = false
  readings : b'.readings = b.readings
  kept : ∀ content, b.files.at? place = some (.file content) →
    b'.files.at? place = some (.file content)

namespace Bench

variable {place : Place} {b b' : Bench}

instance (place : Place) : IsPreorder Bench (Quiet place) where
  refl b := ⟨⟨[], by simp, by simp⟩, rfl, fun _ h => h⟩
  trans b b' b'' h h' := by
    refine ⟨?_, h'.readings.trans h.readings, fun content hc => h'.kept content (h.kept content hc)⟩
    obtain ⟨more, he, hm⟩ := h.asked
    obtain ⟨more', he', hm'⟩ := h'.asked
    refine ⟨more ++ more', by rw [he', he, List.append_assoc], ?_⟩
    intro r hr
    exact (List.mem_append.mp hr).elim (hm r) (hm' r)

theorem Left.quiet {K : Request → Prop} {F : FileStore → FileStore → Prop} (h : b.Left K F b')
    (hK : ∀ r, K r → r.role ≠ .run) (hF : ∀ content, b.files.at? place = some (.file content) →
      b'.files.at? place = some (.file content)) : b.Quiet place b' where
  asked := by
    obtain ⟨more, he, hm⟩ := h.asked
    refine ⟨more, he, fun r hr => ?_⟩
    rw [← Bool.not_eq_true, r.isMachine_iff]
    exact hK r (hm r hr)
  readings := h.readings
  kept := hF

end Bench

namespace Session

def Quiet {α : Type} (place : Place) (s : Session α) : Prop :=
  ∀ (o : Outside) (b : Bench), b.Quiet place (s.run o b).2

section
variable {α β : Type} {place : Place}

theorem quiet_of_leaves {s : Session α} {K : Request → Prop} {S : Place → Prop}
    (h : s.Leaves (Bench.Left K (FileStore.Swept S))) (hK : ∀ r, K r → r.role ≠ .run)
    (hS : ∀ q, S q → place.within q = false) : s.Quiet place :=
  fun o b => (h o b).quiet hK fun _ => (h o b).files.file hS

theorem quiet_pure (a : α) : (pure a : Session α).Quiet place := leaves_pure a

theorem quiet_bind {x : Session α} {f : α → Session β} (hx : x.Quiet place)
    (hf : ∀ a, (f a).Quiet place) : (x >>= f).Quiet place := leaves_bind hx hf

theorem quiet_map {x : Session α} (hx : x.Quiet place) (f : α → β) : (f <$> x).Quiet place :=
  leaves_map hx f

theorem quiet_log (event : LogEvent) : (log event).Quiet place :=
  leaves_modify fun _ => ⟨⟨[], by simp, by simp⟩, rfl, fun _ h => h⟩

theorem quiet_printLine (line : String) : (printLine line).Quiet place :=
  leaves_modify fun _ => ⟨⟨[], by simp, by simp⟩, rfl, fun _ h => h⟩

end

end Session

end BackendFuzz
