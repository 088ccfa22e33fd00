import BackendFuzz.Proofs.Campaign.Replies
import BackendFuzz.Proofs.Json.Printable

/-!
# One test

What a backend does in a test accords with the machine's reply, and a failed run
becomes the error of its backend alone. A test of an unhindered campaign either
gives its records, among them one for each such error once another backend ran,
or it ends after a reply that escapes.
-/

namespace BackendFuzz

open Campaign.Unhindered

/-- One backend's part in a test: its result, and the reply of the machine if it ran. -/
structure Trial where
  result : BackendResult
  reply : Option MachineReply

inductive Trial.Sound (settings : Settings) (plan : CallPlan) : Trial → Prop
  | rejected (o : CompileOutcome) (h : o.success = false) :
    Sound settings plan ⟨{ compile := o }, none⟩
  | notRun (o : CompileOutcome) (h : o.success = true)
    (hc : o.bytecode.truthy = false ∨ plan.callText? o.selectors = none) :
    Sound settings plan ⟨{ compile := o, missingExecution := true }, none⟩
  | ran (o : CompileOutcome) (h : o.success = true) {callData : String} {reply : MachineReply}
    {run : RunOutcome} (hc : plan.callText? o.selectors = some callData)
    (hv : Machine.verdict settings
      (Machine.command settings o.bytecode callData o.backend.revision) reply = .ok run) :
    Sound settings plan ⟨{ compile := o, run := some run }, some reply⟩
  | broken (o : CompileOutcome) (h : o.success = true) {callData : String} {reply : MachineReply}
    {fault : ProcessFault} (hc : plan.callText? o.selectors = some callData)
    (hv : Machine.verdict settings
      (Machine.command settings o.bytecode callData o.backend.revision) reply =
        .error (.process fault)) :
    Sound settings plan ⟨{ compile := o, executionError := some fault.message }, some reply⟩

theorem Trial.Sound.settled {settings : Settings} {plan : CallPlan} {t : Trial}
    (h : t.Sound settings plan) : t.result.Settled := by
  cases h with
  | rejected o h => exact .rejected o h
  | notRun o h => exact .notRun o h
  | ran o h => exact .ran o _ h
  | broken o h => exact .broken o _ h

/-! ## One backend -/

section
variable {c : Campaign} {settings : Settings} {planner : Planner} {o : Outside} {place : Place}
  {limit : Nat} {u : c.Unhindered planner o place limit} (hc : c.OnTools settings planner)
include hc

def Trial.Fits (settings : Settings) (plan : CallPlan) (outcome : CompileOutcome)
    (replies : List MachineReply) (result : BackendResult) : Prop :=
  ∃ reply, replies = Option.toList reply ∧ result.compile = outcome ∧
    Trial.Sound settings plan ⟨result, reply⟩

omit hc in
/-- A run that the machine replied to, with a failure of a program caught. -/
theorem isolates_caught {b : Bench} (hb : u.Ready b) {plan : CallPlan} {outcome : CompileOutcome}
    (hs : outcome.success = true) (hk : outcome.bytecode.checkKey = .ok ()) {callData : String}
    (hd : plan.callText? outcome.selectors = some callData) (onFault : ProcessFault → LogEvent) :
    u.Isolates b (do
      match ← Session.attempt (Machine.execute settings outcome.bytecode callData
        outcome.backend.revision) with
      | .ok run => return { compile := outcome, run := some run }
      | .error (.process fault) =>
        Session.log (onFault fault)
        return { compile := outcome, executionError := some fault.message }
      | .error fault => throw fault) (Trial.Fits settings plan outcome) := by
  obtain ⟨events, hrun⟩ := @Machine.run_execute o b settings outcome.bytecode callData
    outcome.backend.revision hk (u.unused hb)
  have hesc := Machine.verdict_escapes_iff settings (Machine.command settings outcome.bytecode
    callData outcome.backend.revision) (o.machine b.asked outcome.bytecode)
  have hready := u.ready_asked hb (r := Machine.request settings outcome.bytecode callData
    outcome.backend.revision) rfl events
  generalize hb₁ : ({ b with asked := _, events := events } : Bench) = b₁ at hrun hready
  have hfollows : b.Follows o place [o.machine b.asked outcome.bytecode] b₁ := by
    rw [← hb₁]
    exact ⟨⟨_, rfl, o.replies_request _ _ _ _ _⟩, rfl, fun _ h => h⟩
  have hcaught := Session.run_attempt o b (Machine.execute settings outcome.bytecode callData
    outcome.backend.revision)
  rw [hrun] at hcaught
  generalize hreply : o.machine b.asked outcome.bytecode = reply at *
  cases hv : Machine.verdict settings (Machine.command settings outcome.bytecode callData
    outcome.backend.revision) reply with
  | ok run =>
    have hn : ¬ Machine.Escapes reply := by
      rw [← hesc, hv]
      rintro ⟨_, h, _⟩
      cases h
    rw [hv] at hcaught
    exact ⟨[reply], _, b₁, Session.run_bind_ok hcaught _, hfollows, Or.inl ⟨_, rfl, hready,
      ⟨some reply, rfl, rfl, .ran outcome hs hd hv⟩, by simpa using hn⟩⟩
  | error fault =>
    rw [hv] at hcaught
    by_cases hp : Machine.IsProcess fault
    · obtain ⟨p, rfl⟩ := hp
      have hn : ¬ Machine.Escapes reply := by
        rw [← hesc, hv, Machine.error_and_not_process]
        exact fun h => h ⟨p, rfl⟩
      have hlogged : b₁.Follows o place [] { b₁ with events := b₁.events ++ [onFault p] } :=
        .of_quiet (Session.quiet_log (onFault p) o b₁)
      exact ⟨[reply], .ok { compile := outcome, executionError := some p.message }, _,
        Session.run_bind_ok hcaught _, hfollows.trans hlogged, Or.inl ⟨_, rfl,
          u.ready_events hready _, ⟨some reply, rfl, rfl, .broken outcome hs hd hv⟩,
          by simpa using hn⟩⟩
    · have hbad : Machine.Escapes reply := by
        rw [← hesc, hv, Machine.error_and_not_process]
        exact hp
      refine ⟨[reply], .error fault, b₁, (Session.run_bind_ok hcaught _).trans ?_, hfollows,
        Or.inr ⟨⟨fault, rfl⟩, reply, List.mem_singleton_self _, hbad⟩⟩
      cases fault <;> first | rfl | exact absurd ⟨_, rfl⟩ hp

theorem isolates_runCall {b : Bench} (hb : u.Ready b) (index : Int) (backend : Backend)
    {outcome : CompileOutcome} (hbackend : outcome.backend = backend)
    (hs : outcome.success = true) (hcall : outcome.Callable) (plan : CallPlan) :
    u.Isolates b (c.runCall index backend outcome plan) (Trial.Fits settings plan outcome) := by
  obtain ⟨hkey, hfit⟩ := hcall
  have hlook : (Session.looking (plan.callData outcome.selectors) : Session (Option String)) =
      pure (plan.callText? outcome.selectors) := by
    rw [CallPlan.callData_of_fits (hfit plan)]; rfl
  have hnot : ∀ event : LogEvent, outcome.bytecode.truthy = false ∨
      plan.callText? outcome.selectors = none → u.Isolates b
        (Session.log event >>= fun _ => pure { compile := outcome, missingExecution := true })
        (Trial.Fits settings plan outcome) := fun event h =>
    isolates_quiet hb (u.answers_log event) (Session.quiet_log event) fun _ b' hb' _ =>
      isolates_pure hb' ⟨none, rfl, rfl, .notRun outcome hs h⟩
  unfold Campaign.runCall
  simp only [hlook, hc.executes, pure_bind]
  split
  · cases hd : plan.callText? outcome.selectors with
    | none => exact hnot _ (Or.inr hd)
    | some callData =>
      subst hbackend
      exact isolates_caught hb hs hkey hd _
  · rename_i ht
    exact hnot _ (Or.inl (by simpa using ht))

theorem isolates_tryBackend {b : Bench} (hb : u.Ready b) {i : Nat} (hi : i < limit) {v : Variant}
    (hv : u.Made i v) {backend : Backend} (hmem : backend ∈ c.backends) (plan : CallPlan) :
    u.Isolates b (c.tryBackend v (some plan) backend) fun replies result =>
      ∃ outcome : CompileOutcome, outcome.backend = backend ∧ outcome.Callable ∧
        Trial.Fits settings plan outcome replies result := by
  obtain ⟨d, -, hd⟩ := hc.compiles
  have hquiet : (c.tools.compile v backend).Quiet place := by
    rw [hd]; exact d.quiet_compile v backend u.apart
  have hanswers : (c.tools.compile v backend).Answers o u.Ready fun outcome =>
      outcome.backend = backend ∧ outcome.Callable := by
    intro b hb
    obtain ⟨outcome, b', hr, hb', hcall⟩ := u.compiles hi hv hmem b hb
    refine ⟨outcome, b', hr, hb', ?_, hcall⟩
    rw [hd] at hr
    exact (d.yields_compile v backend).of_run hr
  refine isolates_quiet hb hanswers hquiet fun outcome b' hb' ⟨hbackend, hcall⟩ => ?_
  cases hs : outcome.success with
  | false =>
    simp only [Bool.not_false, ite_true]
    refine isolates_quiet hb' (u.answers_log _) (Session.quiet_log _) fun _ b'' hb'' _ => ?_
    exact isolates_pure hb'' ⟨outcome, hbackend, hcall, none, rfl, rfl, .rejected outcome hs⟩
  | true =>
    simp only [Bool.not_true, Bool.false_eq_true, ite_false]
    exact isolates_mono (isolates_runCall hc hb' v.index backend hbackend hs hcall plan)
      fun replies result h => ⟨outcome, hbackend, hcall, h⟩

theorem isolates_tryBackends {b : Bench} (hb : u.Ready b) {i : Nat} (hi : i < limit) {v : Variant}
    (hv : u.Made i v) (plan : CallPlan) {backends : List Backend}
    (hmem : ∀ backend ∈ backends, backend ∈ c.backends) :
    u.Isolates b (backends.mapM (c.tryBackend v (some plan))) fun replies results =>
      ∃ trials : List Trial, trials.map (·.result) = results ∧
        trials.flatMap (·.reply.toList) = replies ∧
        trials.map (·.result.compile.backend) = backends ∧
        ∀ t ∈ trials, t.Sound settings plan ∧ t.result.compile.Callable := by
  induction backends generalizing b with
  | nil => exact isolates_pure hb ⟨[], rfl, rfl, rfl, by simp⟩
  | cons backend backends ih =>
    rw [List.forall_mem_cons] at hmem
    rw [List.mapM_cons]
    refine isolates_bind (isolates_tryBackend hc hb hi hv hmem.1 plan) ?_
    rintro _ result b' hb' ⟨outcome, hbackend, hcall, reply, rfl, rfl, hsound⟩
    refine isolates_bind (ih hb' hmem.2) ?_
    rintro _ results b'' hb'' ⟨trials, rfl, rfl, hbackends, hall⟩
    refine isolates_pure hb'' ⟨⟨result, reply⟩ :: trials, rfl, ?_, ?_, ?_⟩
    · simp
    · simp [hbackend, hbackends]
    · exact List.forall_mem_cons.mpr ⟨⟨hsound, hcall⟩, hall⟩

/-! ## All backends of a test -/

structure TestTrace where
  plan : CallPlan
  trials : List Trial
  records : List DivergenceRecord
  lines : ByteArray

namespace TestTrace

def replies (t : TestTrace) : List MachineReply := t.trials.flatMap (·.reply.toList)

/-- A test that was made to its end: every backend in order has a trial that accords with the
machine, and the records are those of all trials, among them one for every failed run as soon as
another backend ran. -/
structure Complete (c : Campaign) (settings : Settings) (index : Nat) (t : TestTrace) : Prop where
  backends : t.trials.map (·.result.compile.backend) = c.backends
  sound : ∀ trial ∈ t.trials, trial.Sound settings t.plan
  classified : classify (t.trials.map (·.result)) (c.variantPath index).text (some t.plan) =
    .ok t.records
  reported : ∀ trial ∈ t.trials, ∀ e, trial.result.executionError = some e →
    (∃ other ∈ t.trials, other.result.run.isSome) →
    ∃ record ∈ t.records, record.category = .executionError ∧
      record.version = trial.result.version ∧ record.error = some e
  encoded : Text.encode (String.join (t.records.map (·.line))) = .ok t.lines

end TestTrace

omit hc in
theorem encode_lines (records : List DivergenceRecord) :
    Text.encode (String.join (records.map (·.line))) =
      .ok (String.join (records.map (·.line))).toUTF8 := by
  apply Text.encode_of_low
  rw [String.toList_join]
  intro x hx
  obtain ⟨line, hline, hx⟩ := List.mem_flatten.mp hx
  obtain ⟨_, hrecord, rfl⟩ := List.mem_map.mp hline
  obtain ⟨record, -, rfl⟩ := List.mem_map.mp hrecord
  rw [DivergenceRecord.line, String.toList_append, Json.print, String.toList_ofList] at hx
  rcases List.mem_append.mp hx with hx | hx
  · exact (Json.allPlain_printed _).low x hx
  · rw [List.mem_singleton.mp hx]; decide

omit hc in
theorem answers_forM_log (events : List LogEvent) :
    (events.forM Session.log).Answers o u.Ready fun _ => True := by
  induction events with
  | nil => exact fun b hb => ⟨(), b, rfl, hb, trivial⟩
  | cons event events ih =>
    intro b hb
    obtain ⟨_, b', hr, hb', _⟩ := ih _ (u.ready_events hb (b.events ++ [event]))
    refine ⟨(), b', ?_, hb', trivial⟩
    exact (Session.run_bind_ok (Session.run_log o b event) _).trans hr

omit hc in
theorem quiet_forM_log (events : List LogEvent) : (events.forM Session.log).Quiet place :=
  Session.leaves_forM Session.quiet_log events

omit hc in
theorem isolates_judge {b : Bench} (hb : u.Ready b) (index : Nat) (plan : CallPlan)
    {trials : List Trial} (hbackends : trials.map (·.result.compile.backend) = c.backends)
    (hall : ∀ t ∈ trials, t.Sound settings plan ∧ t.result.compile.Callable) :
    u.Isolates b (c.judge index (some plan) (trials.map (·.result))) fun replies report =>
      replies = [] ∧ ∃ t : TestTrace, t.Complete c settings index ∧ t.trials = trials ∧
        t.records = report.records := by
  have hsettled : ∀ r ∈ trials.map (·.result), r.Settled := by
    intro r hr
    obtain ⟨t, ht, rfl⟩ := List.mem_map.mp hr
    exact (hall t ht).1.settled
  have hfit : ∀ r ∈ trials.map (·.result), plan.Fits r.compile.selectors := by
    intro r hr
    obtain ⟨t, ht, rfl⟩ := List.mem_map.mp hr
    exact (hall t ht).2.2 plan
  obtain ⟨records, hrecords, herrors⟩ := classify_errors hsettled hfit (c.variantPath index).text
  obtain ⟨lines, hlines⟩ : ∃ lines, Text.encode (String.join (records.map (·.line))) = .ok lines :=
    ⟨_, encode_lines records⟩
  have hlook : Session.looking (.ok records) = (pure records : Session _) := rfl
  unfold Campaign.judge
  simp only [hrecords, hlook, pure_bind]
  refine isolates_quiet hb (answers_forM_log _) (quiet_forM_log _) fun _ b' hb' _ => ?_
  refine isolates_pure hb' ⟨rfl, ⟨plan, trials, records, lines⟩, ?_, rfl, rfl⟩
  refine ⟨hbackends, fun t ht => (hall t ht).1, hrecords, ?_, hlines⟩
  rintro t ht e he ⟨other, hother, hran⟩
  exact herrors t.result (List.mem_map_of_mem ht) e he
    ⟨other.result, List.mem_map_of_mem hother, hran⟩

theorem quiet_renderFirst (v : Variant) : (c.renderFirst v).Quiet place := by
  obtain ⟨d, hd, -⟩ := hc.compiles
  rw [Campaign.renderFirst, hd]
  exact d.quiet_render v.tree c.first

theorem quiet_present (v : Variant) : (c.present v).Quiet place := by
  have hkeep : ∀ x : Unit, (do
      if c.config.saveVariants then
        let _ ← saveVariant (c.variantPath v.index) (← c.renderFirst v) : Session Unit).Quiet place := by
    intro _
    split
    · exact Session.quiet_bind (quiet_renderFirst hc v) fun _ =>
        Session.quiet_bind (quiet_saveVariant _ _) fun _ => Session.quiet_pure _
    · exact Session.quiet_pure _
  unfold Campaign.present
  dsimp only
  split
  · exact Session.quiet_bind (Session.quiet_printLine _) fun _ =>
      Session.quiet_bind (quiet_renderFirst hc v) fun _ =>
        Session.quiet_bind (Session.quiet_printLine _) hkeep
  · exact hkeep ()

theorem isolates_test {b : Bench} (hb : u.Ready b) {i : Nat} (hi : i < limit) :
    u.Isolates b (c.test i) fun replies report => ∃ t : TestTrace,
      t.Complete c settings i ∧ t.replies = replies ∧ t.records = report.records := by
  obtain ⟨g, seeds, hg, hgen⟩ := hc.generates
  have hgquiet : (c.tools.generate i).Quiet place := by rw [hgen]; exact g.quiet_generate hg seeds i
  unfold Campaign.test
  refine isolates_quiet hb (u.generates hi) hgquiet fun v b hb hv => ?_
  refine isolates_quiet hb (u.presents hi hv) (quiet_present hc v) fun _ b hb _ => ?_
  rw [hc.plans]
  have hplan : (some <$> planner.plan v.tree).Answers o u.Ready fun plan => ∃ p, plan = some p := by
    intro b hb
    obtain ⟨p, b', hr, hb', -⟩ := u.plans hi hv b hb
    exact ⟨some p, b', Session.run_map_ok hr some, hb', p, rfl⟩
  refine isolates_quiet hb hplan (Session.quiet_map (planner.quiet_plan v.tree) some) ?_
  rintro _ b hb ⟨plan, rfl⟩
  refine isolates_bind (isolates_tryBackends hc hb hi hv plan fun _ h => h) ?_
  rintro _ _ b hb ⟨trials, rfl, rfl, hbackends, hall⟩
  refine isolates_bind (isolates_judge hb i plan hbackends hall) ?_
  rintro _ report b hb ⟨rfl, t, ht, rfl, hrecords⟩
  have hgood : ∃ t' : TestTrace, t'.Complete c settings i ∧
      t'.replies = t.trials.flatMap (·.reply.toList) ++ ([] ++ []) ∧ t'.records = report.records :=
    ⟨t, ht, by simp [TestTrace.replies], hrecords⟩
  split
  · dsimp only
    rw [← bind_assoc]
    refine isolates_quiet hb (u.keeps hi hv) (Session.quiet_bind (quiet_renderFirst hc v)
      fun _ => quiet_saveVariant _ _) fun _ b hb _ => ?_
    exact isolates_pure hb hgood
  · exact isolates_pure hb hgood

end

end BackendFuzz
