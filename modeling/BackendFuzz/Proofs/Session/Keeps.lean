import BackendFuzz.Proofs.Session.Frame

/-!
# Sessions that learn nothing

A session that only makes requests of a kind and leaves what is remembered of
compilers as it is, whether or not it ends in a fault.
-/

namespace BackendFuzz

/-- All requests between two benches are of a kind, and nothing is learned of compilers. -/
structure Bench.Keeps (K : Request → Prop) (b b' : Bench) : Prop where
  asked : ∃ more, b'.asked = b.asked ++ more ∧ ∀ r ∈ more, K r
  memory : b'.memory = b.memory

instance (K : Request → Prop) : IsPreorder Bench (Bench.Keeps K) where
  refl b := ⟨⟨[], (List.append_nil _).symm, List.forall_mem_nil _⟩, rfl⟩
  trans b b' b'' h h' := by
    obtain ⟨more, he, hm⟩ := h.asked
    obtain ⟨more', he', hm'⟩ := h'.asked
    refine ⟨⟨more ++ more', by rw [he', he, List.append_assoc], fun r hr => ?_⟩,
      h'.memory.trans h.memory⟩
    exact (List.mem_append.mp hr).elim (hm r) (hm' r)

namespace Bench

variable {K : Request → Prop}

theorem Keeps.mono {K' : Request → Prop} {b b' : Bench} (h : b.Keeps K b')
    (hK : ∀ r, K r → K' r) : b.Keeps K' b' := by
  obtain ⟨more, he, hm⟩ := h.asked
  exact ⟨⟨more, he, fun r hr => hK r (hm r hr)⟩, h.memory⟩

theorem keeps_of_asked {b b' : Bench} (hasked : b'.asked = b.asked) (hmemory : b'.memory = b.memory) :
    b.Keeps K b' :=
  ⟨⟨[], by rw [hasked, List.append_nil], List.forall_mem_nil _⟩, hmemory⟩

end Bench

namespace Session

variable {K : Request → Prop} {α : Type}

theorem keeps_note {r : Request} (h : K r) : (note r).Leaves (Bench.Keeps K) :=
  fun _ _ => ⟨⟨[r], rfl, by simpa using h⟩, rfl⟩

theorem keeps_log (event : LogEvent) : (log event).Leaves (Bench.Keeps K) :=
  leaves_modify fun _ => Bench.keeps_of_asked rfl rfl

theorem keeps_debug (component : Component) (message : String) :
    (debug component message).Leaves (Bench.Keeps K) := keeps_log _

theorem keeps_printLine (line : String) : (printLine line).Leaves (Bench.Keeps K) :=
  leaves_modify fun _ => Bench.keeps_of_asked rfl rfl

theorem keeps_readClock : readClock.Leaves (Bench.Keeps K) :=
  fun _ _ => Bench.keeps_of_asked rfl rfl

theorem keeps_callBits {count : Nat} (h : K (.callBits count)) :
    (callBits count).Leaves (Bench.Keeps K) :=
  leaves_bind (keeps_note h) fun _ => leaves_bind leaves_read fun _ => leaves_pure _

theorem keeps_sessionBits {count : Nat} (h : K (.sessionBits count)) :
    (sessionBits count).Leaves (Bench.Keeps K) :=
  leaves_bind (keeps_note h) fun _ => leaves_bind leaves_read fun _ => leaves_pure _

theorem keeps_pick {items : List α} (h : K (.choice items.length)) :
    (pick items).Leaves (Bench.Keeps K) := by
  have hchoice : (choice items.length).Leaves (Bench.Keeps K) :=
    leaves_bind (keeps_note h) fun _ => leaves_bind leaves_read fun _ => leaves_pure _
  refine leaves_bind hchoice fun index => ?_
  unfold itemAt
  dsimp only
  split
  · exact leaves_pure _
  · exact leaves_throw _

theorem keeps_changeFiles (path : Path) (change : FileStore → Path → Except FileFault FileStore) :
    (changeFiles path change).Leaves (Bench.Keeps K) :=
  fun o _ => leaves_run_changeFiles o fun _ _ => Bench.keeps_of_asked rfl rfl

theorem keeps_furnish (path : Path) : (furnish path).Leaves (Bench.Keeps K) :=
  fun o _ => leaves_run_furnish o (Bench.keeps_of_asked rfl rfl)

theorem keeps_withScratch {directory : Path} {body : Session α} (h : body.Leaves (Bench.Keeps K)) :
    (withScratch directory body).Leaves (Bench.Keeps K) := by
  refine leaves_bind (keeps_changeFiles _ _) fun _ => leaves_bind (leaves_attempt h) fun r => ?_
  exact leaves_bind (leaves_modify fun _ => Bench.keeps_of_asked rfl rfl) fun _ => leaves_ofExcept r

/-- What is said of a compiler's end, and what it means. -/
theorem keeps_remarked {remarkable : Prop} [Decidable remarkable] (component : Component)
    (message : String) {s : Session α} (h : s.Leaves (Bench.Keeps K)) : (do
      if remarkable then debug component message
      s : Session α).Leaves (Bench.Keeps K) := by
  split
  · exact leaves_bind (keeps_debug _ _) fun _ => h
  · exact h

theorem keeps_isFile (path : Path) : (isFile path).Leaves (Bench.Keeps K) := by
  unfold isFile
  split
  · exact leaves_pure _
  · refine leaves_bind leaves_get fun b => ?_
    split
    · exact leaves_pure _
    · exact leaves_throw _

theorem keeps_readTextFile (path : Path) : (readTextFile path).Leaves (Bench.Keeps K) := by
  refine leaves_bind (leaves_checkPath path) fun _ => leaves_bind leaves_get fun b => ?_
  split
  · exact leaves_throw _
  · split
    · exact leaves_pure _
    · exact leaves_throw _

end Session

end BackendFuzz
