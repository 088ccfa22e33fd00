import BackendFuzz.Proofs.Campaign.Calls
import BackendFuzz.Proofs.Campaign.Compiles

/-!
# Dispatch

In a test that is made to its end every backend has its turn, in order. It
compiles the variant once, whatever the backends before it did, and asks for the
machine once more if what it compiled can be called, and not otherwise.
-/

namespace BackendFuzz

open Session

theorem Backend.revision_eq (backend : Backend) :
    (backend.revision : Int) = if backend.version = "eof" then 14 else 13 := by
  unfold revision
  simp only [isEof_iff]
  split <;> rfl

/-- A compile that gives an outcome ends with its one request for a compile, of the source as it was
rendered for the backend. -/
theorem Dispatcher.asked_compile {o : Outside} {b b' : Bench} {d : Dispatcher} {variant : Variant}
    {backend : Backend} {outcome : CompileOutcome}
    (h : (d.compile variant backend).run o b = (.ok outcome, b')) :
    ∃ source rendered preparing compile,
      (d.render variant.tree backend).run o b = (.ok source, rendered) ∧
      b'.asked = b.asked ++ preparing ++ [compile] ∧ (∀ r ∈ preparing, r.role = .other) ∧
      backend.Compiles d.settings source compile := by
  generalize hr : (.ok outcome : Except Fault CompileOutcome) = result at h
  cases d.ends_run h with
  | unasked unprepared asked roles => cases hr
  | replied render target roles compiles asked =>
    exact ⟨_, _, _, _, render, asked, roles, compiles⟩

/-! ## The turn of a backend -/

/-- What a backend compiled can be called: there is bytecode, a call is planned, and the backend's
table has an entry for its signature that is not null. -/
def CompileOutcome.Runnable (outcome : CompileOutcome) (plan : Option CallPlan) : Prop :=
  outcome.success = true ∧ outcome.bytecode.truthy = true ∧ ∃ call selector, plan = some call ∧
    outcome.selectors.lookup call.signature = some selector ∧ selector ≠ .null

theorem CallPlan.lookup_of_callData {plan : CallPlan} {selectors : Selectors} {callData : String}
    (h : plan.callData selectors = .ok (some callData)) :
    ∃ selector, selectors.lookup plan.signature = some selector ∧ selector ≠ .null := by
  unfold CallPlan.callData at h
  split at h
  · cases h
  · cases h
  · exact ⟨_, ‹_›, by simp⟩
  · cases h

theorem CallPlan.lookup_null {plan : CallPlan} {selectors : Selectors}
    (h : plan.callData selectors = .ok none) {selector : Json}
    (hl : selectors.lookup plan.signature = some selector) : selector = .null := by
  unfold CallPlan.callData at h
  rw [hl] at h
  cases selector <;> first | rfl | cases h

namespace Campaign

structure Dispatch where
  backend : Backend
  outcome : CompileOutcome
  preparing : List Request
  compile : Request
  call : Option Request

def Dispatch.asked (d : Dispatch) : List Request := d.preparing ++ d.compile :: d.call.toList

structure Dispatch.Of (c : Campaign) (settings : Settings) (o : Outside) (variant : Variant)
    (plan : Option CallPlan) (d : Dispatch) (b b' : Bench) (result : BackendResult) : Prop where
  tried : (c.tryBackend variant plan d.backend).run o b = (.ok result, b')
  asked : b'.asked = b.asked ++ d.asked
  compiled : ∃ compiled, (c.tools.compile variant d.backend).run o b = (.ok d.outcome, compiled) ∧
    compiled.asked = b.asked ++ d.preparing ++ [d.compile]
  preparing : ∀ r ∈ d.preparing, r.role = .other
  compile : ∃ source rendered,
    (c.tools.render variant.tree d.backend).run o b = (.ok source, rendered) ∧
    d.backend.Compiles settings source d.compile
  called_iff : d.call.isSome = true ↔ d.outcome.Runnable plan
  call : ∀ r, d.call = some r → ∃ call callData, plan = some call ∧
    call.callData d.outcome.selectors = .ok (some callData) ∧
    r = Machine.request settings d.outcome.bytecode callData
      (if d.backend.version = "eof" then 14 else 13)

inductive Dispatches (c : Campaign) (settings : Settings) (o : Outside) (variant : Variant)
    (plan : Option CallPlan) : Bench → List Dispatch → List BackendResult → Bench → Prop
  | done {b : Bench} : Dispatches c settings o variant plan b [] [] b
  | next {b b₁ b' : Bench} {d : Dispatch} {ds : List Dispatch} {result : BackendResult}
    {results : List BackendResult} (h : d.Of c settings o variant plan b b₁ result)
    (hrest : Dispatches c settings o variant plan b₁ ds results b') :
    Dispatches c settings o variant plan b (d :: ds) (result :: results) b'

section
variable {c : Campaign} {settings : Settings} {o : Outside} {variant : Variant}
  {plan : Option CallPlan} {b b' : Bench}

theorem Dispatches.asked {ds : List Dispatch} {results : List BackendResult}
    (h : Dispatches c settings o variant plan b ds results b') :
    b'.asked = b.asked ++ ds.flatMap (·.asked) := by
  induction h with
  | done => exact (List.append_nil _).symm
  | next h hrest ih => rw [ih, h.asked, List.append_assoc, List.flatMap_cons]

variable (hc : c.Equipped settings)
include hc

/-- A call that comes to a result asks for the machine exactly if there is what to call. -/
theorem called_of_runCall {index : Int} {backend : Backend} {outcome : CompileOutcome}
    {call : CallPlan} (hs : outcome.success = true) {result : BackendResult}
    (h : (c.runCall index backend outcome call).run o b = (.ok result, b')) :
    (outcome.Runnable (some call) ∧ ∃ callData,
      call.callData outcome.selectors = .ok (some callData) ∧ b'.asked = b.asked ++
        [Machine.request settings outcome.bytecode callData backend.revision]) ∨
    (¬ outcome.Runnable (some call) ∧ b'.asked = b.asked) := by
  by_cases ht : outcome.bytecode.truthy = true
  · cases hd : call.callData outcome.selectors with
    | error cause =>
      unfold runCall at h
      rw [if_pos ht, hd] at h
      cases h
    | ok callData =>
      cases callData with
      | none =>
        unfold runCall at h
        rw [if_pos ht, hd] at h
        cases h
        refine Or.inr ⟨?_, rfl⟩
        rintro ⟨-, -, _, selector, hplan, hlookup, hnull⟩
        cases hplan
        exact hnull (CallPlan.lookup_null hd hlookup)
      | some callData =>
        obtain ⟨selector, hlookup, hnull⟩ := CallPlan.lookup_of_callData hd
        refine Or.inl ⟨⟨hs, ht, call, selector, rfl, hlookup, hnull⟩, callData, rfl, ?_⟩
        rcases hexecute : (c.tools.execute outcome.bytecode callData backend.revision).run o b with
          ⟨ran, b₁⟩
        obtain ⟨events, hrun⟩ := @run_runCall c o b b₁ index backend outcome call _ ht hd _ hexecute
        rw [hrun] at h
        obtain ⟨hcalled, rfl⟩ := Prod.mk.inj h
        rw [hc.executes] at hexecute
        rcases @Machine.asked_execute settings outcome.bytecode callData backend.revision o b with
          hasked | ⟨fault, b₂, hfault, hnot, -⟩
        · rwa [hexecute] at hasked
        -- A machine that could not be asked at all leaves the call without a result.
        · cases hfault.symm.trans hexecute
          rw [called_not_process hnot] at hcalled
          cases hcalled
  · unfold runCall at h
    rw [if_neg ht] at h
    cases h
    exact Or.inr ⟨fun hrunnable => ht hrunnable.2.1, rfl⟩

theorem dispatch_of_tryBackend {backend : Backend} {result : BackendResult}
    (h : (c.tryBackend variant plan backend).run o b = (.ok result, b')) :
    ∃ d : Dispatch, d.backend = backend ∧ d.Of c settings o variant plan b b' result := by
  obtain ⟨user, hrender, hcompile⟩ := hc.compiles
  have htried := h
  obtain ⟨outcome, b₁, hcompiled, h⟩ := run_bind_ok_inv h
  have hcompiles := hcompiled
  rw [hcompile] at hcompiles
  obtain ⟨source, rendered, preparing, compile, hsource, hasked, hroles, hrequest⟩ :=
    Dispatcher.asked_compile hcompiles
  rw [← hrender] at hsource
  -- Only the call is left open: whether there is one, and what it asks for.
  have hdispatch : ∀ r : Option Request, b'.asked = b₁.asked ++ r.toList →
      (r.isSome = true ↔ outcome.Runnable plan) → (∀ request, r = some request → ∃ call callData,
        plan = some call ∧ call.callData outcome.selectors = .ok (some callData) ∧
        request = Machine.request settings outcome.bytecode callData
          (if backend.version = "eof" then 14 else 13)) →
      ∃ d : Dispatch, d.backend = backend ∧ d.Of c settings o variant plan b b' result :=
    fun r hr hiff hcall => ⟨⟨backend, outcome, preparing, compile, r⟩, rfl,
      { tried := htried
        asked := by simp [Dispatch.asked, hr, hasked]
        compiled := ⟨b₁, hcompiled, hasked⟩
        preparing := hroles
        compile := ⟨source, rendered, hsource, hrequest⟩
        called_iff := hiff
        call := hcall }⟩
  have huncalled : b'.asked = b₁.asked → ¬ outcome.Runnable plan →
      ∃ d : Dispatch, d.backend = backend ∧ d.Of c settings o variant plan b b' result :=
    fun hnone hnot => hdispatch none (hnone.trans (List.append_nil _).symm)
      (iff_of_false (by simp) hnot) fun _ h => by cases h
  by_cases hs : outcome.success = true
  · rw [if_neg (by simp [hs])] at h
    cases plan with
    | none =>
      cases h
      exact huncalled rfl fun ⟨_, _, _, _, hplan, _⟩ => by cases hplan
    | some call =>
      rcases called_of_runCall hc hs h with ⟨hrunnable, callData, hd, hmachine⟩ | ⟨hnot, hnone⟩
      · refine hdispatch (some _) hmachine (iff_of_true rfl hrunnable) fun request hrequest => ?_
        cases hrequest
        exact ⟨call, callData, rfl, hd, by rw [backend.revision_eq]⟩
      · exact huncalled hnone hnot
  · rw [if_pos (by simpa using hs)] at h
    cases h
    exact huncalled rfl fun hrunnable => hs hrunnable.1

theorem dispatches_of_backends {backends : List Backend} {results : List BackendResult}
    (h : (backends.mapM (c.tryBackend variant plan)).run o b = (.ok results, b')) :
    ∃ ds, ds.map (·.backend) = backends ∧ Dispatches c settings o variant plan b ds results b' := by
  induction backends generalizing b results with
  | nil =>
    cases h
    exact ⟨[], rfl, .done⟩
  | cons backend backends ih =>
    rw [List.mapM_cons] at h
    obtain ⟨result, b₁, htried, h⟩ := run_bind_ok_inv h
    obtain ⟨rest, b₂, hrest, h⟩ := run_bind_ok_inv h
    cases h
    obtain ⟨d, rfl, hd⟩ := dispatch_of_tryBackend hc htried
    obtain ⟨ds, rfl, hds⟩ := ih hrest
    exact ⟨d :: ds, rfl, .next hd hds⟩

end

/-! ## Tests made to their end -/

/-- The requests of a test in order: those before its backends have their turns, the turns, and those
for its source. -/
structure DispatchTrace where
  first : List Request
  turns : List Dispatch
  last : List Request

namespace DispatchTrace

def asked (k : DispatchTrace) : List Request := k.first ++ k.turns.flatMap (·.asked) ++ k.last

/-- A test that was made between two benches is the turns of all backends, in order, and nothing is
compiled or run besides. -/
structure Of (c : Campaign) (settings : Settings) (o : Outside) {index : Int} {b b' : Bench}
    (t : c.Made o index b b') (k : DispatchTrace) : Prop where
  asked : b'.asked = b.asked ++ k.asked
  turns : Dispatches c settings o t.variant t.plan t.planned k.turns t.results t.tried
  inOrder : k.turns.map (·.backend) = c.backends
  beside : ∀ r ∈ k.first ++ k.last, r.role ≠ .compile ∧ r.role ≠ .run

end DispatchTrace

section
variable {c : Campaign} {settings : Settings} {o : Outside} (hc : c.Equipped settings)
include hc

theorem dispatch_of_made {index : Int} {b b' : Bench} (t : c.Made o index b b') :
    ∃ k : DispatchTrace, k.Of c settings o t := by
  have hbeside : ∀ r : Request, r.role = .other ∨ r.role = .draw →
      r.role ≠ .compile ∧ r.role ≠ .run := by
    rintro r (hr | hr) <;> rw [hr] <;> decide
  have hgenerated := Bench.asks_of_left ((leaves_generate hc index (F := fun _ _ => True)).of_run
    t.generates) fun r hr => hbeside r (Or.inl hr)
  have hpresented := ((asks_present hc t.variant).of_run t.presents).mono
    fun r hr => hbeside r (Or.inl hr.1)
  have hplanned := Bench.asks_of_left ((leaves_planFor t.variant (F := fun _ _ => True)).of_run
    t.plans) fun r hr => hbeside r (Or.inr hr)
  obtain ⟨first, hfirst, hbefore⟩ := trans_of (Bench.Asks _) (trans_of (Bench.Asks _) hgenerated
    hpresented) hplanned
  obtain ⟨turns, hinOrder, hturns⟩ := dispatches_of_backends hc t.tries
  have hjudged : t.judged.asked = t.tried.asked :=
    ((leaves_judge index t.plan t.results (F := fun _ _ => True)).of_run t.judges).asked_eq
  obtain ⟨last, hlast, hafter⟩ := (asks_keepSource hc _ index t.variant).of_run t.keeps
  refine ⟨⟨first, turns, last⟩, { asked := ?_, turns := hturns, inOrder := hinOrder, beside := ?_ }⟩
  · rw [hlast, hjudged, hturns.asked, hfirst]
    simp [DispatchTrace.asked]
  · intro r hr
    exact (List.mem_append.mp hr).elim (hbefore r) fun h => hbeside r (Or.inl (hafter r h).1)

omit hc in
/-- Nothing is asked for once a test has been made: its lines are all that is left of its iteration. -/
theorem Iteration.Ran.tested {it : Iteration} (h : it.Ran c o) {report : TestReport}
    (hreport : it.outcome = .ok report) : ∃ tested,
      (c.test it.index).run o it.before = (.ok report, tested) ∧ it.after.asked = tested.asked := by
  obtain ⟨results, r, hrun, houtcome⟩ := h
  rw [hreport] at houtcome
  cases r with
  | error fault => cases houtcome
  | ok made =>
    obtain ⟨report', tested, htest, hlines⟩ := run_bind_ok_inv hrun
    obtain ⟨results', written, hwrite, hreturn⟩ := run_bind_ok_inv hlines
    cases houtcome
    cases hreturn
    exact ⟨tested, htest, ((leaves_write results report'.records).of_run hwrite).asked_eq⟩

/-- In every test of a run that is made to its end, each backend compiles once, in order, and is
followed by its one call exactly if what it compiled can be called. -/
theorem every_backend_dispatched_once (o : Outside) (budget : Nat) (b : Bench) :
    ∃ its r b', c.Runs o budget b its r b' ∧ (c.run budget).run o b = (r, b') ∧
      ∀ it ∈ its, ∀ report, it.outcome = .ok report →
        ∃ (tested : Bench) (t : c.Made o it.index it.before tested) (k : DispatchTrace),
          t.report = report ∧ it.after.asked = tested.asked ∧ k.Of c settings o t := by
  obtain ⟨its, r, b', hruns, hrun⟩ := run_spec c o budget b
  refine ⟨its, r, b', hruns, hrun, fun it hit report hreport => ?_⟩
  obtain ⟨tested, htest, hasked⟩ := (hruns.ran it hit).tested hreport
  obtain ⟨t, hmade⟩ := made_of_run htest
  obtain ⟨k, hk⟩ := dispatch_of_made hc t
  exact ⟨tested, t, k, hmade, hasked, hk⟩

end

end Campaign

theorem backends_dispatched_for_one_record : Sample.campaign.Equipped {} ∧ ∃ r b',
    (Sample.campaign.run 0).run Sample.divided Sample.benchAlone = (r, b') ∧
    ∃ (before tested : Bench) (t : Sample.campaign.Made Sample.divided 0 before tested)
      (k : Campaign.DispatchTrace), t.report = ⟨[Sample.record], false⟩ ∧
      k.Of Sample.campaign {} Sample.divided t ∧ k.turns.map (·.backend.version) = ["a", "b"] := by
  obtain ⟨its, r, b', hruns, hrun, hdispatched⟩ := Campaign.every_backend_dispatched_once
    Sample.equipped Sample.divided 0 Sample.benchAlone
  obtain ⟨-, it, rfl, hindex, houtcome, -⟩ := Sample.runs_reported Sample.usable_benchAlone hruns
  obtain ⟨tested, t, k, hreport, -, hk⟩ := hdispatched it (List.mem_singleton_self it) _ houtcome
  have hversions := congrArg (List.map (·.version)) hk.inOrder
  rw [List.map_map] at hversions
  obtain ⟨index, before, after, outcome⟩ := it
  cases hindex
  exact ⟨Sample.equipped, r, b', hrun, before, tested, t, k, hreport, hk, hversions⟩

end BackendFuzz
