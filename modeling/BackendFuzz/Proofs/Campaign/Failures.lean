import BackendFuzz.Proofs.Campaign.Readiness

/-!
# Failures of a campaign

That nothing is to do is found before a campaign starts. Whatever cuts one of its
tests short after that is a failure, in every outside.
-/

namespace BackendFuzz

open Session

/-- Whether a fault says that something went wrong: not that nothing is to do. -/
def Fault.isFailure : Fault → Bool
  | .nothingToDo _ => false
  | _ => true

def Failure (fault : Fault) : Prop := fault.isFailure = true

theorem failure_of_unconfigured (fault : Fault) (h : fault.isConfiguration = false) :
    Failure fault := by
  cases fault with
  | nothingToDo cause => cases h
  | _ => rfl

section
variable {α : Type} {o : Outside}

theorem errorWithin_of_unfaulted {e : Except Fault α} (h : Unfaulted e) : ErrorWithin Failure e :=
  fun fault hfault => failure_of_unconfigured fault (h fault hfault)

theorem errorWithin_misuse (e : Except Misuse α) : ErrorWithin Failure (e.mapError Fault.misuse) :=
  errorWithin_of_unfaulted (unfaulted_mapError (fun _ => rfl) e)

theorem Session.Configured.fails {s : Session α} (h : s.Configured o) : s.FaultsWithin Failure o :=
  FaultsWithin.mono h failure_of_unconfigured

/-- Of a session that fails wherever it ends with a fault of configuration, all faults are
failures. -/
theorem Session.fails_of_configuration {s : Session α} (h : ∀ b fault,
    fault.isConfiguration = true → s.EndsWith o b fault → Failure fault) :
    s.FaultsWithin Failure o := by
  intro b fault b' hrun
  cases hf : fault.isConfiguration with
  | false => exact failure_of_unconfigured fault hf
  | true => exact h b fault hf ⟨b', hrun⟩

end

/-! ## Tools -/

section
variable {o : Outside} {settings : Settings}

theorem Engine.fails_checkReply (action : RewriteAction) (command : List String) (ended : Ended) :
    ErrorWithin Failure (checkReply action command ended) := by
  apply errorWithin_bind
  · exact errorWithin_of_unfaulted (unfaulted_mapError (Fault.ofParse_unconfigured fun _ => rfl) _)
  · intro reply
    apply errorWithin_bind (errorWithin_misuse _)
    intro refused
    split
    · apply errorWithin_bind (errorWithin_misuse _)
      intro error
      apply errorWithin_bind (errorWithin_misuse _)
      intro fault
      exact errorWithin_error rfl
    · split
      · exact errorWithin_error rfl
      · exact errorWithin_ok reply

theorem Engine.fails_call (action : RewriteAction) (fields : Fields) :
    (call settings action fields).FaultsWithin Failure o := by
  refine within_bind (within_note _) fun before => within_bind within_read fun outside => ?_
  split
  · exact within_ofExcept (fails_checkReply action _ _)
  · exact within_throw rfl
  · exact within_throw rfl
  · apply within_bind (configured_settled (configured_throw rfl) _).fails
    intro ended
    exact within_ofExcept (fails_checkReply action _ ended)

theorem Engine.fails_render (tree : SyntaxTree) (version : String) :
    (render settings tree version).FaultsWithin Failure o :=
  within_bind (fails_call _ _) fun _ => (configured_looking _).fails

theorem Engine.fails_rewrite (tree : SyntaxTree) (rules : RuleSet) (depth seed : Int) :
    (rewrite settings tree rules depth seed).FaultsWithin Failure o := by
  apply within_bind (fails_call _ _)
  intro reply
  exact within_bind (configured_looking _).fails fun _ => within_pure _

theorem Generator.fails_generate {g : Generator} (hg : g.selector = none)
    (seeds : List SyntaxTree) (index : Int) : (g.generate seeds index).FaultsWithin Failure o := by
  unfold generate
  simp only [hg]
  split
  · have hseeds : Failure (.configuration .noSeeds) := rfl
    exact within_throw_bind hseeds _
  · apply within_bind (configured_pick seeds).fails
    intro seed
    split
    · exact within_pure _
    · apply within_bind
      · intro b fault b' h
        cases h
      · intro mutation
        apply within_bind (Engine.fails_rewrite _ _ _ _)
        intro tree
        exact within_bind (within_modify _) fun _ => within_pure _

theorem fails_drawInteger (t : IntegerType) : (drawInteger t).FaultsWithin Failure o := by
  unfold drawInteger
  split
  · apply within_bind (configured_callBits _).fails
    intro magnitude
    exact within_bind (configured_callBits _).fails fun sign => within_pure _
  · exact (configured_callBits _).fails

theorem fails_resolveType (parameter : Json) : ErrorWithin Failure (resolveType parameter) := by
  apply errorWithin_bind (errorWithin_misuse _)
  intro text
  split
  · split
    · exact errorWithin_ok _
    · exact errorWithin_error rfl
    · exact errorWithin_bind (errorWithin_misuse _) fun _ =>
        errorWithin_error rfl
  · exact errorWithin_error rfl

theorem Planner.fails_parameterTypes (p : Planner) (tree : SyntaxTree) :
    ErrorWithin Failure (p.parameterTypes tree) := by
  apply errorWithin_bind
  · apply errorWithin_bind (errorWithin_misuse _)
    intro function
    split
    · exact errorWithin_ok _
    · exact errorWithin_bind (errorWithin_misuse _) fun _ =>
        errorWithin_error rfl
  · intro function
    apply errorWithin_bind (errorWithin_misuse _)
    intro parameters
    exact errorWithin_mapM fails_resolveType parameters

theorem Planner.fails_plan (p : Planner) (tree : SyntaxTree) :
    (p.plan tree).FaultsWithin Failure o := by
  apply within_bind (within_ofExcept (p.fails_parameterTypes tree))
  intro types
  apply within_bind (within_mapM fails_drawInteger types)
  intro values
  exact within_bind (within_modify _) fun _ => within_pure _

theorem Dispatcher.fails_render (user : Option Fields) (tree : SyntaxTree) (backend : Backend) :
    (Dispatcher.render ⟨settings, user⟩ tree backend).FaultsWithin Failure o := by
  apply within_bind (CompilerVersion.configured_resolve backend).fails
  intro version
  exact Engine.fails_render tree version

theorem Dispatcher.fails_compile (user : Option Fields) (variant : Variant) (backend : Backend) :
    (Dispatcher.compile ⟨settings, user⟩ variant backend).FaultsWithin Failure o := by
  rw [compile_eq]
  apply within_bind (fails_render user variant.tree backend)
  intro source
  apply within_bind (configured_looking _).fails
  intro name
  -- All that a compiler finds wrong with the configuration is that it is missing.
  apply fails_of_configuration
  intro b fault hf h
  obtain ⟨-, -, -, -, rfl⟩ := (compileSource_endsWith_iff hf).mp h
  rfl

end

/-! ## Tests -/

namespace Campaign

section
variable {c : Campaign} {settings : Settings} {o : Outside} (hc : c.Equipped settings)
include hc

theorem fails_renderFirst (variant : Variant) :
    (c.renderFirst variant).FaultsWithin Failure o := by
  obtain ⟨user, hrender, -⟩ := hc.compiles
  unfold renderFirst
  rw [hrender]
  exact Dispatcher.fails_render user variant.tree c.first

omit hc in
theorem fails_planFor (variant : Variant) : (c.planFor variant).FaultsWithin Failure o := by
  unfold planFor
  split
  · exact within_map (Planner.fails_plan _ variant.tree) _
  · exact within_pure _

theorem fails_tryBackend (variant : Variant) (plan : Option CallPlan) (backend : Backend) :
    (c.tryBackend variant plan backend).FaultsWithin Failure o := by
  obtain ⟨user, -, hcompile⟩ := hc.compiles
  unfold tryBackend
  rw [hcompile]
  apply within_bind (Dispatcher.fails_compile user variant backend)
  intro outcome
  split
  · exact within_bind (within_modify _) fun _ => within_pure _
  · cases plan with
    | none => exact within_pure _
    | some plan => exact (configured_runCall hc variant.index backend outcome plan).fails

theorem fails_test (index : Int) : (c.test index).FaultsWithin Failure o := by
  obtain ⟨g, seeds, hselector, hgenerate⟩ := hc.generates
  rw [test_eq, hgenerate]
  apply within_bind (Generator.fails_generate hselector seeds index)
  intro variant
  have hrender := fails_renderFirst (o := o) hc variant
  apply within_bind (within_present failure_of_unconfigured hrender)
  intro _
  apply within_bind (fails_planFor variant)
  intro plan
  apply within_bind (within_mapM (fails_tryBackend hc variant plan) c.backends)
  intro results
  apply within_bind (within_judge failure_of_unconfigured index plan results)
  intro report
  exact within_bind (within_keepSource failure_of_unconfigured hrender _ index) fun _ =>
    within_pure _

theorem fails_recordedTest (index : Int) (results : ResultsFile) :
    (c.recordedTest index results).FaultsWithin Failure o := by
  apply within_bind (fails_test hc index)
  intro report
  exact within_bind (configured_write results report.records).fails fun _ => within_pure _

/-! ## Runs -/

theorem Iteration.Ran.fails {it : Iteration} (h : it.Ran c o) :
    ErrorWithin Failure it.outcome := by
  intro fault hfault
  obtain ⟨results, r, hrun, houtcome⟩ := h
  rw [houtcome] at hfault
  cases r with
  | error fault' =>
    cases hfault
    exact fails_recordedTest hc it.index results it.before fault it.after hrun
  | ok made => cases hfault

theorem Proceeds.fails {budget : Nat} {deadline : Option Binary64} {b b' : Bench}
    {its : List Iteration} {stats : CampaignStats} {fault : Fault}
    (h : c.Proceeds o budget deadline b its stats (.faulted fault) b') : Failure fault := by
  cases h with
  | unopened h => exact (configured_opened _).fails _ fault b' h
  | opened h hits =>
    obtain ⟨it, hit, houtcome⟩ := hits.faulted rfl
    exact (hits.ran it hit).fails hc fault houtcome

/-- Nothing that ends a run early says that nothing is to do. -/
theorem Runs.fails {budget : Nat} {b b' : Bench} {its : List Iteration}
    {r : Except Fault CampaignEnd} {fault : Fault} (h : c.Runs o budget b its r b')
    (hr : EndsRun fault r) : Failure fault := by
  cases h with
  | refused hd =>
    rcases hr with hr | ⟨stats, hr⟩
    · cases hr
      exact errorWithin_of_unfaulted (unfaulted_deadlineFrom _ _) fault hd
    · cases hr
  | @made deadline its stats ending b₁ b' r hd h hlast =>
    rcases hr with hr | ⟨stats', hr⟩
    · cases hr
    · cases r with
      | error fault' =>
        cases hr
        exact (configured_conclude _ stats).fails b₁ _ b' hlast
      | ok last =>
        obtain rfl := endOf_faulted (Except.ok.inj hr)
        exact h.fails hc

end

end Campaign

end BackendFuzz
