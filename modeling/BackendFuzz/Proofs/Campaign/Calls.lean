import BackendFuzz.Proofs.Campaign.Iterations
import BackendFuzz.Proofs.Divergence.Origins

/-!
# Calls

The call of a test is fixed before any backend sees the variant, and each
backend's machine is asked for it at most once: with that backend's selector and
the same words. What records say of the call is what the machine got.
-/

namespace BackendFuzz

open Session

/-! ## Plans -/

def callInput (selector : String) (values : List Int) : String :=
  "0x" ++ String.ofList (CallPlan.withoutMark selector.toList) ++
    String.join (values.map encodeWord)

theorem Planner.yields_plan (p : Planner) (tree : SyntaxTree) :
    (p.plan tree).Yields fun plan => plan.encoded = String.join (plan.values.map encodeWord) :=
  yields_bind fun _ => yields_bind fun _ => yields_bind fun _ => yields_pure rfl

theorem CallPlan.callData_inv {plan : CallPlan}
    (hp : plan.encoded = String.join (plan.values.map encodeWord)) {selectors : Selectors}
    {callData : String} (h : plan.callData selectors = .ok (some callData)) :
    ∃ selector, selectors.lookup plan.signature = some (.text selector) ∧
      callData = callInput selector plan.values := by
  unfold CallPlan.callData at h
  split at h
  · cases h
  · cases h
  · rename_i selector hlookup
    cases h
    exact ⟨selector, hlookup, by rw [callInput, hp]⟩
  · cases h

theorem CallPlan.callData_of_lookup {plan : CallPlan}
    (hp : plan.encoded = String.join (plan.values.map encodeWord)) {selectors : Selectors}
    {selector : String} (h : selectors.lookup plan.signature = some (.text selector)) :
    plan.callData selectors = .ok (some (callInput selector plan.values)) := by
  rw [CallPlan.callData, h, callInput, hp]

/-! ## Requests of a kind -/

def Bench.Asks (K : Request → Prop) (b b' : Bench) : Prop :=
  ∃ more, b'.asked = b.asked ++ more ∧ ∀ r ∈ more, K r

instance (K : Request → Prop) : IsPreorder Bench (Bench.Asks K) where
  refl b := ⟨[], (List.append_nil _).symm, List.forall_mem_nil _⟩
  trans b b' b'' h h' := by
    obtain ⟨more, he, hm⟩ := h
    obtain ⟨more', he', hm'⟩ := h'
    refine ⟨more ++ more', by rw [he', he, List.append_assoc], fun r hr => ?_⟩
    exact (List.mem_append.mp hr).elim (hm r) (hm' r)

theorem Bench.Asks.mono {K K' : Request → Prop} {b b' : Bench} (h : b.Asks K b')
    (hK : ∀ r, K r → K' r) : b.Asks K' b' := by
  obtain ⟨more, he, hm⟩ := h
  exact ⟨more, he, fun r hr => hK r (hm r hr)⟩

theorem Bench.asks_of_left {K K' : Request → Prop} {F : FileStore → FileStore → Prop}
    {b b' : Bench} (h : b.Left K F b') (hK : ∀ r, K r → K' r) : b.Asks K' b' :=
  Bench.Asks.mono (K := K) h.asked hK

namespace Campaign

section
variable {c : Campaign} {settings : Settings} (hc : c.Equipped settings)
include hc

theorem asks_renderFirst (variant : Variant) :
    (c.renderFirst variant).Leaves (Bench.Asks fun r => r.role = .other ∧ r.Testing) :=
  (leaves_renderFirst hc variant (F := fun _ _ => True)).mono
    fun _ _ h => Bench.asks_of_left h fun _ => id

theorem asks_keepSource (wanted : Bool) (index : Int) (variant : Variant) :
    (c.keepSource wanted index variant).Leaves
      (Bench.Asks fun r => r.role = .other ∧ r.Testing) :=
  leaves_keepSource_of (asks_renderFirst hc variant)
    (fun source => (leaves_saveVariant _ source).mono
      fun _ _ h => Bench.asks_of_left h fun _ h => h.elim) wanted

theorem asks_present (variant : Variant) :
    (c.present variant).Leaves (Bench.Asks fun r => r.role = .other ∧ r.Testing) := by
  have hprint : ∀ line, (Session.printLine line).Leaves
      (Bench.Asks fun r => r.role = .other ∧ r.Testing) :=
    fun line => leaves_modify fun b => refl_of (Bench.Asks _) b
  rw [present_eq]
  exact leaves_bind (leaves_showSource_of (asks_renderFirst hc variant) hprint) fun _ =>
    asks_keepSource hc _ _ variant

end

/-! ## Turns of backends -/

structure Turn where
  backend : Backend
  before : Bench
  after : Bench
  asked : List Request
  result : Except Fault BackendResult

def TakenFrom (c : Campaign) (o : Outside) (variant : Variant) (plan : CallPlan) :
    Bench → List Turn → Prop
  | _, [] => True
  | b, t :: turns =>
    t.before = b ∧ (c.tryBackend variant (some plan) t.backend).run o b = (t.result, t.after) ∧
      t.after.asked = b.asked ++ t.asked ∧ TakenFrom c o variant plan t.after turns

/-- The machine was asked for the call with an input, as the last request of the turn. -/
structure Turn.Calls (c : Campaign) (settings : Settings) (o : Outside) (variant : Variant)
    (plan : CallPlan) (t : Turn) (outcome : CompileOutcome) (input : String) : Prop where
  compiles : ∃ compiled,
    (c.tools.compile variant t.backend).run o t.before = (.ok outcome, compiled)
  selects : ∃ selector, outcome.selectors.lookup plan.signature = some (.text selector) ∧
    input = callInput selector plan.values
  asked : ∃ compiling, t.asked =
      compiling ++ [Machine.request settings outcome.bytecode input t.backend.revision] ∧
    ∀ r ∈ compiling, r.Compiling

inductive Turn.Made (c : Campaign) (settings : Settings) (o : Outside) (variant : Variant)
    (plan : CallPlan) : Turn → Prop
  | uncalled {t : Turn} (hasked : ∀ r ∈ t.asked, r.Compiling) (hresult : ∀ result,
      t.result = .ok result → result.run = none ∧ result.executionError = none) :
    Made c settings o variant plan t
  | called {t : Turn} {outcome : CompileOutcome} {input : String}
    (h : t.Calls c settings o variant plan outcome input)
    (hresult : ∀ result, t.result = .ok result → result.compile = outcome) :
    Made c settings o variant plan t

section
variable {c : Campaign} {settings : Settings} {o : Outside} {variant : Variant} {plan : CallPlan}
  (hc : c.Equipped settings)

theorem called_compile {outcome : CompileOutcome} {r : Except Fault RunOutcome}
    {result : BackendResult} (h : called outcome r = .ok result) : result.compile = outcome := by
  cases r with
  | ok run => cases h; rfl
  | error fault => cases fault <;> cases h; rfl

theorem called_not_process {outcome : CompileOutcome} {fault : Fault}
    (h : ¬ Machine.IsProcess fault) : called outcome (.error fault) = .error fault := by
  cases fault <;> first | rfl | exact absurd ⟨_, rfl⟩ h

include hc

/-- The call asks for the machine with the backend's selector, or for nothing. -/
theorem asked_runCall (hp : plan.encoded = String.join (plan.values.map encodeWord)) {index : Int}
    {backend : Backend} {outcome : CompileOutcome} {b b' : Bench} {r : Except Fault BackendResult}
    (h : (c.runCall index backend outcome plan).run o b = (r, b')) :
    (b'.asked = b.asked ∧
      ∀ result, r = .ok result → result.run = none ∧ result.executionError = none) ∨
    ∃ selector, outcome.selectors.lookup plan.signature = some (.text selector) ∧
      b'.asked = b.asked ++ [Machine.request settings outcome.bytecode
        (callInput selector plan.values) backend.revision] ∧
      ∀ result, r = .ok result → result.compile = outcome := by
  by_cases ht : outcome.bytecode.truthy = true
  · cases hd : plan.callData outcome.selectors with
    | error cause =>
      unfold runCall at h
      rw [if_pos ht, hd] at h
      cases h
      exact Or.inl ⟨rfl, fun _ h => by cases h⟩
    | ok callData =>
      cases callData with
      | none =>
        unfold runCall at h
        rw [if_pos ht, hd] at h
        cases h
        exact Or.inl ⟨rfl, fun _ h => by cases h; exact ⟨rfl, rfl⟩⟩
      | some callData =>
        obtain ⟨selector, hselector, rfl⟩ := CallPlan.callData_inv hp hd
        rcases hexecute : (c.tools.execute outcome.bytecode (callInput selector plan.values)
          backend.revision).run o b with ⟨ran, b₁⟩
        obtain ⟨events, hrun⟩ := @run_runCall c o b b₁ index backend outcome plan _ ht hd _ hexecute
        rw [hrun] at h
        cases h
        rw [hc.executes] at hexecute
        rcases @Machine.asked_execute settings outcome.bytecode (callInput selector plan.values)
          backend.revision o b with hmachine | ⟨fault, b₂, hfault, hnot, hmachine⟩
        · rw [hexecute] at hmachine
          exact Or.inr ⟨selector, hselector, hmachine, fun _ h => called_compile h⟩
        -- The directory of the machine could not be made: the test faults before the machine is asked.
        · cases hfault.symm.trans hexecute
          refine Or.inl ⟨hmachine, fun _ h => ?_⟩
          rw [called_not_process hnot] at h
          cases h
  · unfold runCall at h
    rw [if_neg ht] at h
    cases h
    exact Or.inl ⟨rfl, fun _ h => by cases h; exact ⟨rfl, rfl⟩⟩

theorem made_turn (hp : plan.encoded = String.join (plan.values.map encodeWord))
    {backend : Backend} {b b' : Bench} {r : Except Fault BackendResult}
    (h : (c.tryBackend variant (some plan) backend).run o b = (r, b')) :
    ∃ asked, b'.asked = b.asked ++ asked ∧
      Turn.Made c settings o variant plan ⟨backend, b, b', asked, r⟩ := by
  have hleft := (leaves_compile hc variant backend o b).mono (fun _ => And.left) fun _ _ hs => hs
  unfold tryBackend at h
  rcases hcompile : (c.tools.compile variant backend).run o b with ⟨fault | outcome, b₁⟩
  · rw [run_bind_error hcompile] at h
    rw [hcompile] at hleft
    cases h
    obtain ⟨asked, hasked, hroles⟩ := hleft.asked
    exact ⟨asked, hasked, .uncalled hroles fun _ h => by cases h⟩
  · rw [run_bind_ok hcompile] at h
    rw [hcompile] at hleft
    obtain ⟨asked, hasked, hroles⟩ := hleft.asked
    by_cases hs : outcome.success = true
    · rw [if_neg (by simp [hs])] at h
      replace h : (c.runCall variant.index backend outcome plan).run o b₁ = (r, b') := h
      rcases asked_runCall hc hp h with ⟨hnone, hresult⟩ | ⟨selector, hselector, hmachine, hresult⟩
      · exact ⟨asked, hnone.trans hasked, .uncalled hroles hresult⟩
      · refine ⟨asked ++ [Machine.request settings outcome.bytecode
          (callInput selector plan.values) backend.revision], hmachine.trans ?_, .called
          ⟨⟨b₁, hcompile⟩, ⟨selector, hselector, rfl⟩, asked, rfl, hroles⟩ hresult⟩
        rw [hasked, List.append_assoc]
    · rw [if_pos (by simpa using hs)] at h
      cases h
      exact ⟨asked, hasked, .uncalled hroles fun _ h => by cases h; exact ⟨rfl, rfl⟩⟩

/-- The backends take their turns in order, up to one that ends in a fault. -/
theorem turns_of_backends (hp : plan.encoded = String.join (plan.values.map encodeWord))
    {backends : List Backend} {b b' : Bench} {r : Except Fault (List BackendResult)}
    (h : (backends.mapM (c.tryBackend variant (some plan))).run o b = (r, b')) :
    ∃ turns : List Turn, b'.asked = b.asked ++ turns.flatMap (·.asked) ∧
      c.TakenFrom o variant plan b turns ∧ (∀ t ∈ turns, t.Made c settings o variant plan) ∧
      turns.map (·.backend) <+: backends ∧
      ∀ results, r = .ok results → turns.map (·.backend) = backends ∧
        turns.map (·.result) = results.map .ok := by
  -- By induction on the backends; a fault ends the turns with the one in which it arose.
  induction backends generalizing b b' r with
  | nil =>
    cases h
    exact ⟨[], (List.append_nil _).symm, trivial, List.forall_mem_nil _, List.nil_prefix,
      fun results h => by cases h; exact ⟨rfl, rfl⟩⟩
  | cons backend backends ih =>
    rw [List.mapM_cons] at h
    rcases hturn : (c.tryBackend variant (some plan) backend).run o b with ⟨fault | result, b₁⟩
    · obtain ⟨asked, hasked, hmade⟩ := made_turn hc hp hturn
      rw [run_bind_error hturn] at h
      cases h
      exact ⟨[⟨backend, b, _, asked, _⟩], by simpa using hasked, ⟨rfl, hturn, hasked, trivial⟩,
        List.forall_mem_singleton.mpr hmade, List.prefix_append [backend] backends,
        fun _ h => by cases h⟩
    · obtain ⟨asked, hasked, hmade⟩ := made_turn hc hp hturn
      rw [run_bind_ok hturn] at h
      rcases hrest : (backends.mapM (c.tryBackend variant (some plan))).run o b₁ with ⟨r', b₂⟩
      obtain ⟨turns, hturns, htaken, hall, hprefix, hresults⟩ := ih hrest
      have hb' : b'.asked = b₂.asked ∧ ∀ results, r = .ok results →
          ∃ rest, r' = .ok rest ∧ results = result :: rest := by
        cases r' with
        | error fault =>
          rw [run_bind_error hrest] at h
          cases h
          exact ⟨rfl, fun _ h => by cases h⟩
        | ok rest =>
          rw [run_bind_ok hrest] at h
          cases h
          exact ⟨rfl, fun _ h => ⟨rest, rfl, (Except.ok.inj h).symm⟩⟩
      refine ⟨⟨backend, b, b₁, asked, .ok result⟩ :: turns, ?_, ⟨rfl, hturn, hasked, htaken⟩,
        List.forall_mem_cons.mpr ⟨hmade, hall⟩, ?_, ?_⟩
      · rw [hb'.1, hturns, hasked, List.append_assoc]
        rfl
      · exact (List.prefix_cons_inj backend).mpr hprefix
      · intro results hr
        obtain ⟨rest, hrest', rfl⟩ := hb'.2 results hr
        obtain ⟨hbackends, hall⟩ := hresults rest hrest'
        exact ⟨congrArg (backend :: ·) hbackends, congrArg (Except.ok result :: ·) hall⟩

/-- A record about a run comes from a turn with the call, and tells the call as it was made. -/
theorem call_of_record (hp : plan.encoded = String.join (plan.values.map encodeWord))
    {turns : List Turn} (hturns : ∀ t ∈ turns, t.Made c settings o variant plan)
    {results : List BackendResult} (hresults : turns.map (·.result) = results.map .ok)
    {file : String} {record : DivergenceRecord} (h : Origin results file (some plan) record)
    (hcategory : record.category = .outputMismatch ∨ record.category = .executionError) :
    ∃ t ∈ turns, ∃ outcome input, t.Calls c settings o variant plan outcome input ∧
      record.version = t.backend.version ∧ record.encodedCall = some input ∧
      record.callParameters = some (plan.values.map toString) := by
  obtain ⟨user, -, hcompile⟩ := hc.compiles
  -- A result that tells of a run is that of a turn with the call, and the table of selectors in it
  -- is the one from which the input was made.
  have hcalled : ∀ result ∈ results, result.run ≠ none ∨ result.executionError ≠ none →
      ∃ t ∈ turns, ∃ outcome input, t.Calls c settings o variant plan outcome input ∧
        result.version = t.backend.version ∧
        plan.callData result.compile.selectors = .ok (some input) := by
    intro result hresult hran
    have hmem : Except.ok result ∈ turns.map (·.result) :=
      hresults ▸ List.mem_map_of_mem hresult
    obtain ⟨t, ht, hgave⟩ := List.mem_map.mp hmem
    cases hturns t ht with
    | uncalled hasked hnone =>
      obtain ⟨hrun, herror⟩ := hnone result hgave
      exact (hran.elim (· hrun) (· herror)).elim
    | @called outcome input hcall hsame =>
      obtain rfl := hsame result hgave
      obtain ⟨selector, hselector, rfl⟩ := hcall.selects
      obtain ⟨compiled, hrun⟩ := hcall.compiles
      rw [hcompile] at hrun
      have hbackend := (Dispatcher.yields_compile _ variant t.backend).of_run hrun
      exact ⟨t, ht, _, _, hcall, congrArg Backend.version hbackend,
        CallPlan.callData_of_lookup hp hselector⟩
  have htold : ∀ {category run error kinds} {result : BackendResult}, result ∈ results →
      result.run ≠ none ∨ result.executionError ≠ none →
      Classifier.callRecord category file plan result run error kinds = .ok record →
      ∃ t ∈ turns, ∃ outcome input, t.Calls c settings o variant plan outcome input ∧
        record.version = t.backend.version ∧ record.encodedCall = some input ∧
        record.callParameters = some (plan.values.map toString) := by
    intro category run error kinds result hresult hran hrecord
    obtain ⟨call, hcall, rfl⟩ := callRecord_inv hrecord
    obtain ⟨t, ht, outcome, input, hcalls, hversion, hinput⟩ := hcalled result hresult hran
    cases hcall.symm.trans hinput
    exact ⟨t, ht, outcome, input, hcalls, hversion, rfl, rfl⟩
  cases h with
  | rejected hr hs => rcases hcategory with h | h <;> cases h
  | notRun hr hplan hm hrecord =>
    obtain ⟨call, -, rfl⟩ := callRecord_inv hrecord
    rcases hcategory with h | h <;> cases h
  | broken hr hplan he hrecord =>
    cases hplan
    exact htold hr (Or.inr (by simp [he])) hrecord
  | diverged hr hplan hrun hrecord =>
    cases hplan
    exact htold hr (Or.inl (by simp [hrun])) hrecord

end

/-! ## The call of a test -/

/-- The requests of a test in order: those before its call is planned, the draws of the values,
those of each backend's turn, and those for its source. -/
structure CallTrace where
  first : List Request
  draws : List Request
  turns : List Turn
  last : List Request

namespace CallTrace

def asked (k : CallTrace) : List Request :=
  k.first ++ k.draws ++ k.turns.flatMap (·.asked) ++ k.last

/-- The turns are with one call, which was planned for a variant before them; no other request runs
anything, and records tell of the call as the machine got it. -/
structure Calls (c : Campaign) (settings : Settings) (planner : Planner) (o : Outside) (b : Bench)
    (outcome : Except Fault TestReport) (k : CallTrace) (variant : Variant) (plan : CallPlan) :
    Prop where
  planned : ∃ presented planned, (planner.plan variant.tree).run o presented = (.ok plan, planned) ∧
    presented.asked = b.asked ++ k.first ∧ planned.asked = b.asked ++ k.first ++ k.draws ∧
    c.TakenFrom o variant plan planned k.turns
  made : ∀ t ∈ k.turns, t.Made c settings o variant plan
  inOrder : k.turns.map (·.backend) <+: c.backends
  every : ∀ report, outcome = .ok report → k.turns.map (·.backend) = c.backends
  runs : ∀ r ∈ k.asked, r.role = .run → ∃ t ∈ k.turns, ∃ outcome input,
    t.Calls c settings o variant plan outcome input ∧
    r = Machine.request settings outcome.bytecode input t.backend.revision
  told : ∀ report, outcome = .ok report → ∀ record ∈ report.records,
    record.category = .outputMismatch ∨ record.category = .executionError →
    ∃ t ∈ k.turns, ∃ outcome input, t.Calls c settings o variant plan outcome input ∧
      record.version = t.backend.version ∧ record.encodedCall = some input ∧
      record.callParameters = some (plan.values.map toString)

/-- A test between two benches has one call: it draws nothing but the call's values, and those
before any backend has its turn. -/
structure Of (c : Campaign) (settings : Settings) (planner : Planner) (o : Outside) (b b' : Bench)
    (outcome : Except Fault TestReport) (k : CallTrace) : Prop where
  asked : b'.asked = b.asked ++ k.asked
  first : ∀ r ∈ k.first, r.role = .other
  draws : ∀ r ∈ k.draws, r.role = .draw
  last : ∀ r ∈ k.last, r.role = .other
  call : (k.turns = [] ∧ ∃ fault, outcome = .error fault) ∨
    ∃ variant plan, k.Calls c settings planner o b outcome variant plan

variable {c : Campaign} {settings : Settings} {planner : Planner} {o : Outside} {b b' b'' : Bench}

theorem of_unplanned {first draws : List Request} (hasked : b'.asked = b.asked ++ first ++ draws)
    (hfirst : ∀ r ∈ first, r.role = .other) (hdraws : ∀ r ∈ draws, r.role = .draw) (fault : Fault) :
    CallTrace.Of c settings planner o b b' (.error fault) ⟨first, draws, [], []⟩ where
  asked := by simpa [CallTrace.asked] using hasked
  first := hfirst
  draws := hdraws
  last := List.forall_mem_nil _
  call := Or.inl ⟨rfl, fault, rfl⟩

theorem runs_of_made {k : CallTrace} (hfirst : ∀ r ∈ k.first, r.role = .other)
    (hdraws : ∀ r ∈ k.draws, r.role = .draw) (hlast : ∀ r ∈ k.last, r.role = .other)
    {variant : Variant} {plan : CallPlan} (hmade : ∀ t ∈ k.turns, t.Made c settings o variant plan)
    {r : Request} (hr : r ∈ k.asked) (hrole : r.role = .run) : ∃ t ∈ k.turns, ∃ outcome input,
      t.Calls c settings o variant plan outcome input ∧
      r = Machine.request settings outcome.bytecode input t.backend.revision := by
  -- The role tells requests for a run from all others, so the request is in a turn, and last there.
  have hcompiling : ¬ r.Compiling := by
    rintro (h | h) <;> cases hrole.symm.trans h
  have hturn : r ∈ k.turns.flatMap (·.asked) := by
    rw [CallTrace.asked] at hr
    rcases List.mem_append.mp hr with hr | hr
    · rcases List.mem_append.mp hr with hr | hr
      · rcases List.mem_append.mp hr with hr | hr
        · cases hrole.symm.trans (hfirst r hr)
        · cases hrole.symm.trans (hdraws r hr)
      · exact hr
    · cases hrole.symm.trans (hlast r hr)
  obtain ⟨t, ht, hr⟩ := List.mem_flatMap.mp hturn
  cases hmade t ht with
  | uncalled hasked => exact absurd (hasked r hr) hcompiling
  | called hcalls =>
    obtain ⟨compiling, hasked, hroles⟩ := hcalls.asked
    rw [hasked] at hr
    rcases List.mem_append.mp hr with hr | hr
    · exact absurd (hroles r hr) hcompiling
    · exact ⟨t, ht, _, _, hcalls, List.mem_singleton.mp hr⟩

theorem Of.followed {k : CallTrace} {outcome outcome' : Except Fault TestReport}
    (h : k.Of c settings planner o b b' outcome) (hasked : b''.asked = b'.asked)
    (houtcome : ∀ report, outcome' = .ok report → outcome = .ok report) :
    k.Of c settings planner o b b'' outcome' where
  asked := hasked.trans h.asked
  first := h.first
  draws := h.draws
  last := h.last
  call := by
    rcases h.call with ⟨hturns, fault, rfl⟩ | ⟨variant, plan, hcalls⟩
    · cases outcome' with
      | error fault' => exact Or.inl ⟨hturns, fault', rfl⟩
      | ok report => cases houtcome report rfl
    · exact Or.inr ⟨variant, plan, { hcalls with
        every := fun report hreport => hcalls.every report (houtcome report hreport)
        told := fun report hreport => hcalls.told report (houtcome report hreport) }⟩

end CallTrace

def prepare (c : Campaign) (index : Int) : Session Variant := do
  let variant ← c.tools.generate index
  c.present variant
  return variant

def settle (c : Campaign) (index : Int) (variant : Variant) (plan : Option CallPlan)
    (results : List BackendResult) : Session TestReport := do
  let report ← c.judge index plan results
  c.keepSource (c.keptLate report) index variant
  return report

theorem test_around_turns (c : Campaign) (index : Int) : c.test index = (do
    let variant ← c.prepare index
    let plan ← c.planFor variant
    let results ← c.tryBackends variant plan
    c.settle index variant plan results) := by
  simp only [test_eq, prepare, settle, bind_assoc, pure_bind]

section
variable {c : Campaign} {settings : Settings} {planner : Planner} {o : Outside} {b b' : Bench}
  {index : Int} (hc : c.Equipped settings)
include hc

theorem asks_prepare (index : Int) : (c.prepare index).Leaves (Bench.Asks (·.role = .other)) :=
  leaves_bind ((leaves_generate hc index (F := fun _ _ => True)).mono
    fun _ _ h => Bench.asks_of_left h fun _ => id) fun variant =>
      leaves_bind ((asks_present hc variant).mono fun _ _ h => h.mono fun _ => And.left) fun _ =>
        leaves_pure _

theorem asks_settle (index : Int) (variant : Variant) (plan : Option CallPlan)
    (results : List BackendResult) :
    (c.settle index variant plan results).Leaves (Bench.Asks (·.role = .other)) :=
  leaves_bind ((leaves_judge index plan results (F := fun _ _ => True)).mono
    fun _ _ h => Bench.asks_of_left h fun _ h => h.elim) fun _ =>
      leaves_bind ((asks_keepSource hc _ index variant).mono fun _ _ h => h.mono fun _ => And.left)
        fun _ => leaves_pure _

omit hc in
theorem settle_inv {variant : Variant} {plan : Option CallPlan} {results : List BackendResult}
    {report : TestReport}
    (h : (c.settle index variant plan results).run o b = (.ok report, b')) :
    classify results (c.variantPath index).text plan = .ok report.records := by
  obtain ⟨report', b₁, hjudge, h⟩ := run_bind_ok_inv h
  obtain ⟨_, b₂, -, h⟩ := run_bind_ok_inv h
  cases h
  exact (judge_inv hjudge).1

theorem call_of_test (hplanner : c.tools.planner = some planner) {r : Except Fault TestReport}
    (h : (c.test index).run o b = (r, b')) :
    ∃ k : CallTrace, k.Of c settings planner o b b' r := by
  rw [test_around_turns] at h
  obtain ⟨first, hfirst, hother⟩ := asks_prepare hc index o b
  rcases hprepare : (c.prepare index).run o b with ⟨fault | variant, b₁⟩
  · rw [run_bind_error hprepare] at h
    rw [hprepare] at hfirst
    cases h
    exact ⟨_, CallTrace.of_unplanned (hfirst.trans (List.append_nil _).symm) hother
      (List.forall_mem_nil _) fault⟩
  rw [run_bind_ok hprepare] at h
  rw [hprepare] at hfirst
  have hplan : c.planFor variant = some <$> planner.plan variant.tree := by
    rw [planFor, hplanner]
  obtain ⟨draws, hdraws, hdrawn⟩ :=
    (leaves_planFor (c := c) variant (F := fun _ _ => True) o b₁).asked
  rw [hplan] at h hdraws
  rcases hplanned : (planner.plan variant.tree).run o b₁ with ⟨fault | plan, b₂⟩
  · have hfault := run_map_error hplanned (some : CallPlan → Option CallPlan)
    rw [hfault] at hdraws
    rw [run_bind_error hfault] at h
    cases h
    refine ⟨_, CallTrace.of_unplanned ?_ hother hdrawn fault⟩
    rw [← hfirst]
    exact hdraws
  have hmapped := run_map_ok hplanned (some : CallPlan → Option CallPlan)
  have hp := (planner.yields_plan variant.tree).of_run hplanned
  rw [hmapped] at hdraws
  rw [run_bind_ok hmapped] at h
  dsimp only at hfirst hdraws
  have hplans : ∀ turns, c.TakenFrom o variant plan b₂ turns → ∃ presented planned,
      (planner.plan variant.tree).run o presented = (.ok plan, planned) ∧
      presented.asked = b.asked ++ first ∧ planned.asked = b.asked ++ first ++ draws ∧
      c.TakenFrom o variant plan planned turns :=
    fun turns htaken => ⟨b₁, b₂, hplanned, hfirst, hfirst ▸ hdraws, htaken⟩
  rcases htries : (c.tryBackends variant (some plan)).run o b₂ with ⟨fault | results, b₃⟩
  · obtain ⟨turns, hturns, htaken, hmade, hprefix, -⟩ := turns_of_backends hc hp htries
    rw [run_bind_error htries] at h
    cases h
    have hnone : ∀ r ∈ ([] : List Request), r.role = .other := List.forall_mem_nil _
    refine ⟨⟨first, draws, turns, []⟩,
      { asked := ?_, first := hother, draws := hdrawn, last := hnone,
        call := Or.inr ⟨variant, plan,
          { planned := hplans turns htaken, made := hmade, inOrder := hprefix
            every := fun _ h => by cases h
            runs := fun r => CallTrace.runs_of_made hother hdrawn hnone hmade
            told := fun _ h => by cases h }⟩ }⟩
    simp [CallTrace.asked, hturns, hdraws, hfirst]
  · obtain ⟨turns, hturns, htaken, hmade, hprefix, hresults⟩ := turns_of_backends hc hp htries
    obtain ⟨hbackends, hgave⟩ := hresults results rfl
    obtain ⟨last, hlast, hsettled⟩ := asks_settle hc index variant (some plan) results o b₃
    rw [run_bind_ok htries] at h
    rw [h] at hlast
    refine ⟨⟨first, draws, turns, last⟩,
      { asked := ?_, first := hother, draws := hdrawn, last := hsettled,
        call := Or.inr ⟨variant, plan,
          { planned := hplans turns htaken, made := hmade, inOrder := hprefix
            every := fun _ _ => hbackends
            runs := fun r => CallTrace.runs_of_made hother hdrawn hsettled hmade
            told := ?_ }⟩ }⟩
    · dsimp only at hlast
      simp [CallTrace.asked, hlast, hturns, hdraws, hfirst]
    · rintro report rfl record hrecord hcategory
      exact call_of_record hc hp hmade hgave (origin_of_mem (settle_inv h) hrecord) hcategory

theorem Iteration.Ran.call (hplanner : c.tools.planner = some planner) {it : Iteration}
    (h : it.Ran c o) :
    ∃ k : CallTrace, k.Of c settings planner o it.before it.after it.outcome := by
  obtain ⟨results, r, hrun, houtcome⟩ := h
  unfold recordedTest at hrun
  rcases htest : (c.test it.index).run o it.before with ⟨fault | report, tested⟩
  · obtain ⟨k, hk⟩ := call_of_test hc hplanner htest
    rw [run_bind_error htest] at hrun
    cases hrun
    exact ⟨k, hk.followed rfl fun report hreport => by cases houtcome.symm.trans hreport⟩
  · obtain ⟨k, hk⟩ := call_of_test hc hplanner htest
    -- Adding the lines asks for nothing, so the requests are still those of the test.
    have hleft := leaves_write results report.records o tested
    rw [run_bind_ok htest] at hrun
    rcases hwrite : (results.write report.records).run o tested with ⟨fault | results', b₁⟩
    all_goals
      rw [hwrite] at hleft
      have hasked := hleft.asked_eq
    · rw [run_bind_error hwrite] at hrun
      cases hrun
      exact ⟨k, hk.followed hasked fun report hreport => by cases houtcome.symm.trans hreport⟩
    · rw [run_bind_ok hwrite] at hrun
      cases hrun
      exact ⟨k, hk.followed hasked fun report' hreport => houtcome.symm.trans hreport⟩

/-- Every iteration of a run has one call, planned before any backend's turn, and records tell of it
as it was made. -/
theorem one_call_told_as_made (hplanner : c.tools.planner = some planner) (o : Outside)
    (budget : Nat) (b : Bench) : ∃ its r b', c.Runs o budget b its r b' ∧
      (c.run budget).run o b = (r, b') ∧
      ∀ it ∈ its, ∃ k : CallTrace, k.Of c settings planner o it.before it.after it.outcome := by
  obtain ⟨its, r, b', hruns, hrun⟩ := run_spec c o budget b
  exact ⟨its, r, b', hruns, hrun, fun it hit => (hruns.ran it hit).call hc hplanner⟩

end

end Campaign

theorem call_told_for_one_record : Sample.campaign.tools.planner = some Sample.planner ∧ ∃ r b',
    (Sample.campaign.run 0).run Sample.divided Sample.benchAlone = (r, b') ∧
    ∃ (k : Campaign.CallTrace) (t : Campaign.Turn) (outcome : CompileOutcome), t ∈ k.turns ∧
      t.backend.version = "b" ∧ Sample.record.encodedCall = some "0x26121ff0" ∧
      Machine.request {} outcome.bytecode "0x26121ff0" t.backend.revision ∈ t.asked := by
  obtain ⟨its, r, b', hruns, hrun, hcalls⟩ := Campaign.one_call_told_as_made Sample.equipped
    (rfl : Sample.campaign.tools.planner = some Sample.planner) Sample.divided 0 Sample.benchAlone
  obtain ⟨-, it, rfl, -, houtcome, -⟩ := Sample.runs_reported Sample.usable_benchAlone hruns
  refine ⟨rfl, r, b', hrun, ?_⟩
  obtain ⟨k, hk⟩ := hcalls it (List.mem_singleton_self it)
  rcases hk.call with ⟨-, fault, hfault⟩ | ⟨variant, plan, hcall⟩
  · cases houtcome.symm.trans hfault
  · obtain ⟨t, ht, outcome, input, hmade, hversion, hinput, -⟩ :=
      hcall.told _ houtcome Sample.record (List.mem_singleton_self _) (Or.inr rfl)
    obtain ⟨compiling, hasked, -⟩ := hmade.asked
    cases hinput
    refine ⟨k, t, outcome, ht, hversion.symm, rfl, ?_⟩
    rw [hasked]
    exact List.mem_append_right _ (List.mem_singleton_self _)

end BackendFuzz
