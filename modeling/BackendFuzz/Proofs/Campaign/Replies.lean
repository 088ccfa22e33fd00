import BackendFuzz.Proofs.Campaign.Setup
import BackendFuzz.Proofs.Divergence.Classification
import BackendFuzz.Proofs.Execution.Execute

/-!
# The machine's part in a campaign

What the machine replied is told by the requests that were made. A campaign is
unhindered if every tool but the machine answers whenever it is asked, and then
each of its steps answers too or comes after a reply that escapes.
-/

namespace BackendFuzz

/-! ## Replies -/

namespace Outside

def replyTo? (o : Outside) (before : List Request) : Request → Option MachineReply
  | .machine command _ => command[6]?.map (o.machine before)
  | _ => none

def replies (o : Outside) : List Request → List Request → List MachineReply
  | _, [] => []
  | before, r :: more => (o.replyTo? before r).toList ++ o.replies (before ++ [r]) more

theorem replies_append (o : Outside) (before more more' : List Request) :
    o.replies before (more ++ more') =
      o.replies before more ++ o.replies (before ++ more) more' := by
  induction more generalizing before with
  | nil => simp [replies]
  | cons r more ih => simp only [List.cons_append, replies, ih, List.append_assoc, List.nil_append]

theorem replies_quiet (o : Outside) (before : List Request) {more : List Request}
    (h : ∀ r ∈ more, r.isMachine = false) : o.replies before more = [] := by
  induction more generalizing before with
  | nil => rfl
  | cons r more ih =>
    rw [List.forall_mem_cons] at h
    rw [replies, ih _ h.2]
    cases r <;> first | rfl | cases h.1

theorem mem_replies {o : Outside} {before more : List Request} {reply : MachineReply}
    (h : reply ∈ o.replies before more) : ∃ earlier bytecode, reply = o.machine earlier bytecode := by
  induction more generalizing before with
  | nil => cases h
  | cons r more ih =>
    rcases List.mem_append.mp h with h | h
    · cases r with
      | machine command timeout =>
        obtain ⟨bytecode, -, rfl⟩ := Option.map_eq_some_iff.mp (Option.mem_toList.mp h)
        exact ⟨before, bytecode, rfl⟩
      | _ => cases h
    · exact ih h

theorem replies_request (o : Outside) (before : List Request) (settings : Settings)
    (bytecode : Json) (callData : String) (revision : Int) :
    o.replies before [Machine.request settings bytecode callData revision] =
      [o.machine before bytecode] := rfl

end Outside

structure Bench.Follows (o : Outside) (place : Place) (replies : List MachineReply)
    (b b' : Bench) : Prop where
  asked : ∃ more, b'.asked = b.asked ++ more ∧ o.replies b.asked more = replies
  readings : b'.readings = b.readings
  kept : ∀ content, b.files.at? place = some (.file content) →
    b'.files.at? place = some (.file content)

namespace Bench.Follows

variable {o : Outside} {place : Place} {replies replies' : List MachineReply} {b b' b'' : Bench}

theorem of_quiet (h : b.Quiet place b') : b.Follows o place [] b' where
  asked := by
    obtain ⟨more, he, hm⟩ := h.asked
    exact ⟨more, he, o.replies_quiet _ hm⟩
  readings := h.readings
  kept := h.kept

theorem trans (h : b.Follows o place replies b') (h' : b'.Follows o place replies' b'') :
    b.Follows o place (replies ++ replies') b'' where
  asked := by
    obtain ⟨more, he, rfl⟩ := h.asked
    obtain ⟨more', he', rfl⟩ := h'.asked
    exact ⟨more ++ more', by rw [he', he, List.append_assoc], by rw [o.replies_append, he]⟩
  readings := h'.readings.trans h.readings
  kept content hc := h'.kept content (h.kept content hc)

end Bench.Follows

/-! ## Unhindered campaigns -/

/-- A session that answers on every bench of a family and stays in the family. -/
def Session.Answers {α : Type} (o : Outside) (Ready : Bench → Prop) (s : Session α)
    (Q : α → Prop) : Prop :=
  ∀ b, Ready b → ∃ a b', s.run o b = (.ok a, b') ∧ Ready b' ∧ Q a

/-- What a campaign does by itself: it logs, prints, reads the clock, asks for the machine, and
appends to the results file. -/
structure Bench.Beside (place : Place) (b b' : Bench) : Prop where
  asked : ∃ more, b'.asked = b.asked ++ more ∧ ∀ r ∈ more, r.isMachine = true
  files : b'.files = b.files ∨ ∃ lines, b'.files = b.files.appendAt place lines
  memory : b'.memory = b.memory

def CompileOutcome.Callable (o : CompileOutcome) : Prop :=
  o.bytecode.checkKey = .ok () ∧ ∀ plan : CallPlan, plan.Fits o.selectors

structure Campaign.OnTools (c : Campaign) (settings : Settings) (planner : Planner) : Prop where
  generates : ∃ (g : Generator) (seeds : List SyntaxTree), g.selector = none ∧
    c.tools.generate = g.generate seeds
  compiles : ∃ d : Dispatcher, c.tools.render = d.render ∧ c.tools.compile = d.compile
  executes : c.tools.execute = Machine.execute settings
  plans : c.tools.planner = some planner

theorem Campaign.Equipped.onTools {c : Campaign} {settings : Settings} {planner : Planner}
    (h : c.Equipped settings) (hp : c.tools.planner = some planner) : c.OnTools settings planner where
  generates := h.generates
  compiles := by
    obtain ⟨user, hrender, hcompile⟩ := h.compiles
    exact ⟨⟨settings, user⟩, hrender, hcompile⟩
  executes := h.executes
  plans := hp

/-- A campaign that is set up with a function to test is one. -/
theorem Campaign.yields_build (config : CampaignConfig) (settings : Settings)
    (hf : config.testFunction.isSome) :
    (build config settings).Yields fun c => ∃ planner, c.OnTools settings planner := by
  intro o b c hc
  obtain ⟨hequipped, hplanner⟩ := yields_build_equipped config settings o b c hc
  obtain ⟨planner, hp⟩ := hplanner hf
  exact ⟨planner, hequipped.onTools hp⟩

/-- A family of benches on which everything but the machine answers, for all variants that are
made in the tests below a limit. -/
structure Campaign.Unhindered (c : Campaign) (planner : Planner) (o : Outside) (place : Place)
    (limit : Nat) where
  Ready : Bench → Prop
  Made : Nat → Variant → Prop
  beside : ∀ {b b' : Bench}, Ready b → b.Beside place b' → Ready b'
  unused : ∀ {b : Bench}, Ready b → b.files.Unused Machine.scratchPlace
  apart : place.within EofCompiler.scratchPlace = false
  opens : (ResultsFile.mk c.resultsPath none 0).opened.Answers o Ready fun r => r.place = some place
  generates : ∀ {i : Nat}, i < limit → (c.tools.generate i).Answers o Ready (Made i)
  presents : ∀ {i : Nat} {v : Variant}, i < limit → Made i v →
    (c.present v).Answers o Ready fun _ => True
  plans : ∀ {i : Nat} {v : Variant}, i < limit → Made i v →
    (planner.plan v.tree).Answers o Ready fun _ => True
  compiles : ∀ {i : Nat} {v : Variant} {backend : Backend}, i < limit → Made i v →
    backend ∈ c.backends → (c.tools.compile v backend).Answers o Ready CompileOutcome.Callable
  keeps : ∀ {i : Nat} {v : Variant}, i < limit → Made i v →
    (c.renderFirst v >>= saveVariant (c.variantPath i)).Answers o Ready fun _ => True

namespace Campaign.Unhindered

variable {c : Campaign} {planner : Planner} {o : Outside} {place : Place} {limit : Nat}
  (u : c.Unhindered planner o place limit) {α β : Type}

theorem ready_events {b : Bench} (hb : u.Ready b) (events : List LogEvent) :
    u.Ready { b with events } := u.beside hb ⟨⟨[], by simp, by simp⟩, Or.inl rfl, rfl⟩

theorem ready_printed {b : Bench} (hb : u.Ready b) (printed : List String) :
    u.Ready { b with printed } := u.beside hb ⟨⟨[], by simp, by simp⟩, Or.inl rfl, rfl⟩

theorem ready_readings {b : Bench} (hb : u.Ready b) (readings : Nat) :
    u.Ready { b with readings } := u.beside hb ⟨⟨[], by simp, by simp⟩, Or.inl rfl, rfl⟩

theorem ready_appended {b : Bench} (hb : u.Ready b) (lines : ByteArray) :
    u.Ready { b with files := b.files.appendAt place lines } :=
  u.beside hb ⟨⟨[], by simp, by simp⟩, Or.inr ⟨lines, rfl⟩, rfl⟩

theorem ready_asked {b : Bench} (hb : u.Ready b) {r : Request} (hr : r.isMachine = true)
    (events : List LogEvent) : u.Ready { b with asked := b.asked ++ [r], events } :=
  u.beside hb ⟨⟨[r], rfl, by simpa using hr⟩, Or.inl rfl, rfl⟩

theorem answers_log (event : LogEvent) : (Session.log event).Answers o u.Ready fun _ => True :=
  fun b hb => ⟨(), _, Session.run_log o b event, u.ready_events hb _, trivial⟩

/-- From a bench, a session answers and no reply of the machine escapes, or it ends in a fault
after one that does. -/
def Isolates (b : Bench) (s : Session α) (Good : List MachineReply → α → Prop) : Prop :=
  ∃ replies r b', s.run o b = (r, b') ∧ b.Follows o place replies b' ∧
    ((∃ a, r = .ok a ∧ u.Ready b' ∧ Good replies a ∧ ∀ reply ∈ replies, ¬ Machine.Escapes reply) ∨
      (∃ fault, r = .error fault) ∧ ∃ reply ∈ replies, Machine.Escapes reply)

variable {u} {b : Bench} {s : Session α} {Good Good' : List MachineReply → α → Prop}

theorem isolates_pure (hb : u.Ready b) {a : α} (h : Good [] a) : u.Isolates b (pure a) Good :=
  ⟨[], .ok a, b, rfl, .of_quiet (refl_of (Bench.Quiet place) b), Or.inl ⟨a, rfl, hb, h, by simp⟩⟩

theorem isolates_mono (h : u.Isolates b s Good) (hg : ∀ replies a, Good replies a →
    Good' replies a) : u.Isolates b s Good' := by
  obtain ⟨replies, r, b', hr, hf, ⟨a, ha, hb', hgood, hn⟩ | hbad⟩ := h
  · exact ⟨replies, r, b', hr, hf, Or.inl ⟨a, ha, hb', hg _ _ hgood, hn⟩⟩
  · exact ⟨replies, r, b', hr, hf, Or.inr hbad⟩

theorem isolates_bind {f : α → Session β} {Last : List MachineReply → β → Prop}
    (h : u.Isolates b s Good) (hf : ∀ replies a b', u.Ready b' → Good replies a →
      u.Isolates b' (f a) fun more c => Last (replies ++ more) c) :
    u.Isolates b (s >>= f) Last := by
  obtain ⟨replies, r, b', hr, hfol, ⟨a, rfl, hb', hgood, hn⟩ | ⟨⟨fault, rfl⟩, hbad⟩⟩ := h
  · obtain ⟨more, r', b'', hr', hfol', hend⟩ := hf replies a b' hb' hgood
    refine ⟨replies ++ more, r', b'', by rw [Session.run_bind_ok hr, hr'], hfol.trans hfol', ?_⟩
    rcases hend with ⟨a', rfl, hb'', hlast, hn'⟩ | ⟨hfault, reply, hmem, hesc⟩
    · refine Or.inl ⟨a', rfl, hb'', hlast, ?_⟩
      intro reply hmem
      exact (List.mem_append.mp hmem).elim (hn reply) (hn' reply)
    · exact Or.inr ⟨hfault, reply, List.mem_append_right _ hmem, hesc⟩
  · exact ⟨replies, .error fault, b', Session.run_bind_error hr f, hfol, Or.inr ⟨⟨_, rfl⟩, hbad⟩⟩

/-- A quiet step that answers changes nothing about the rest. -/
theorem isolates_quiet {f : α → Session β} {Last : List MachineReply → β → Prop} {Q : α → Prop}
    (hb : u.Ready b) (ha : s.Answers o u.Ready Q) (hq : s.Quiet place)
    (hf : ∀ a b', u.Ready b' → Q a → u.Isolates b' (f a) Last) : u.Isolates b (s >>= f) Last := by
  obtain ⟨a, b', hr, hb', hQ⟩ := ha b hb
  have hquiet := hq o b
  rw [hr] at hquiet
  have hstep : u.Isolates b s fun replies a => replies = [] ∧ Q a :=
    ⟨[], .ok a, b', hr, .of_quiet hquiet, Or.inl ⟨a, rfl, hb', ⟨rfl, hQ⟩, by simp⟩⟩
  refine isolates_bind hstep ?_
  rintro _ a b' hb' ⟨rfl, hQ⟩
  exact hf a b' hb' hQ

end Campaign.Unhindered

end BackendFuzz
