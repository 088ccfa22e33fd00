import BackendFuzz.Proofs.Campaign.Setup

/-!
# The steps of a test

A test generates a variant, shows and keeps its source as configured, plans a
call, has every backend try it, and judges the results. What each step leaves
holds whether or not the test comes to its end.
-/

namespace BackendFuzz

open Session

namespace Campaign

/-! ## The steps of a test -/

def planFor (c : Campaign) (variant : Variant) : Session (Option CallPlan) :=
  match c.tools.planner with
  | some planner => some <$> planner.plan variant.tree
  | none => pure none

def showSource (c : Campaign) (variant : Variant) : Session Unit := do
  if c.config.showsSources then
    Session.printLine rule
    Session.printLine (← c.renderFirst variant).display

def keepSource (c : Campaign) (wanted : Bool) (index : Int) (variant : Variant) : Session Unit := do
  if wanted then
    let _ ← saveVariant (c.variantPath index) (← c.renderFirst variant)

def keptLate (c : Campaign) (report : TestReport) : Bool :=
  !report.records.isEmpty && !c.config.saveVariants

theorem present_eq (c : Campaign) (variant : Variant) : c.present variant = (do
    c.showSource variant
    c.keepSource c.config.saveVariants variant.index variant) := by
  unfold present showSource keepSource
  cases c.config.showsSources <;> simp

theorem keepSource_return {α : Type} (c : Campaign) (wanted : Bool) (index : Int)
    (variant : Variant) (a : α) : (c.keepSource wanted index variant >>= fun _ => pure a) =
      if wanted then do
        let _ ← saveVariant (c.variantPath index) (← c.renderFirst variant)
        return a
      else pure a := by
  cases wanted <;> simp [keepSource]

theorem test_eq (c : Campaign) (index : Int) : c.test index = (do
    let variant ← c.tools.generate index
    c.present variant
    let plan ← c.planFor variant
    let results ← c.tryBackends variant plan
    let report ← c.judge index plan results
    c.keepSource (c.keptLate report) index variant
    return report) := by
  simp only [keepSource_return]
  unfold test planFor
  cases c.tools.planner <;> rfl

/-! ## The call -/

/-- What a run of the call comes to: only the failure of a program is a result. -/
def called (outcome : CompileOutcome) : Except Fault RunOutcome → Except Fault BackendResult
  | .ok run => .ok { compile := outcome, run := some run }
  | .error (.process fault) => .ok { compile := outcome, executionError := some fault.message }
  | .error fault => .error fault

theorem run_runCall {c : Campaign} {o : Outside} {b b' : Bench} {index : Int} {backend : Backend}
    {outcome : CompileOutcome} {plan : CallPlan} {callData : String}
    (ht : outcome.bytecode.truthy = true)
    (hd : plan.callData outcome.selectors = .ok (some callData)) {r : Except Fault RunOutcome}
    (h : (c.tools.execute outcome.bytecode callData backend.revision).run o b = (r, b')) :
    ∃ events, (c.runCall index backend outcome plan).run o b =
      (called outcome r, { b' with events }) := by
  have hlook : (looking (plan.callData outcome.selectors)).run o b = (.ok (some callData), b) := by
    rw [run_looking, hd]
    rfl
  have hattempt := run_attempt o b (c.tools.execute outcome.bytecode callData backend.revision)
  rw [h] at hattempt
  unfold runCall
  dsimp only
  rw [if_pos ht, run_bind_ok hlook]
  dsimp only
  rw [run_bind_ok hattempt]
  cases r with
  | ok run => exact ⟨b'.events, rfl⟩
  | error fault => cases fault <;> exact ⟨_, rfl⟩

/-! ## What backends make of a variant -/

/-- A result tells what the compiler gave, and if the call was run, what the machine gave. -/
theorem yields_tryBackend {c : Campaign} {variant : Variant} {backend : Backend}
    {P : CompileOutcome → Prop} {Q : RunOutcome → Prop}
    (hcompile : (c.tools.compile variant backend).Yields P)
    (hexecute : ∀ bytecode callData revision, (c.tools.execute bytecode callData revision).Yields Q)
    (plan : Option CallPlan) : (c.tryBackend variant plan backend).Yields
      fun result => P result.compile ∧ ∀ run, result.run = some run → Q run := by
  unfold tryBackend
  refine yields_bind_of hcompile fun outcome houtcome => ?_
  have hunrun : ∀ result : BackendResult, result.compile = outcome → result.run = none →
      (pure result : Session BackendResult).Yields
        fun result => P result.compile ∧ ∀ run, result.run = some run → Q run :=
    fun result hresult hnone => yields_pure
      ⟨by rw [hresult]; exact houtcome, fun run hrun => by cases hnone.symm.trans hrun⟩
  split
  · exact yields_bind fun _ => hunrun _ rfl rfl
  · cases plan with
    | none => exact hunrun _ rfl rfl
    | some plan =>
      unfold runCall
      dsimp only
      split
      all_goals
        refine yields_bind fun callData => ?_
        split
        · exact yields_bind fun _ => hunrun _ rfl rfl
        · refine yields_bind_of (yields_attempt (hexecute _ _ _)) fun ran hran => ?_
          split
          · rename_i run
            refine yields_pure ⟨houtcome, fun run' hrun' => ?_⟩
            cases hrun'
            exact hran run rfl
          · exact yields_bind fun _ => hunrun _ rfl rfl
          · exact yields_throw _

/-! ## What the steps leave -/

section
variable {c : Campaign} {settings : Settings} (hc : c.Equipped settings)
  {F : FileStore → FileStore → Prop} [IsPreorder FileStore F]
include hc

theorem leaves_generate (index : Int) :
    (c.tools.generate index).Leaves (Bench.Left (·.role = .other) F) := by
  obtain ⟨g, seeds, hg, hgenerate⟩ := hc.generates
  rw [hgenerate]
  exact g.leaves_generate hg seeds index

theorem yields_generate (index : Int) : (c.tools.generate index).Yields fun v => v.index = index := by
  obtain ⟨g, seeds, hg, hgenerate⟩ := hc.generates
  rw [hgenerate]
  exact g.yields_generate hg seeds index

theorem leaves_renderFirst (variant : Variant) :
    (c.renderFirst variant).Leaves (Bench.Left (fun r => r.role = .other ∧ r.Testing) F) := by
  obtain ⟨user, hrender, -⟩ := hc.compiles
  rw [renderFirst, hrender]
  exact Dispatcher.leaves_render _ _ _

omit hc in
theorem leaves_planFor (variant : Variant) :
    (c.planFor variant).Leaves (Bench.Left (·.role = .draw) F) := by
  unfold planFor
  split
  · exact leaves_map (Planner.leaves_plan _ _) _
  · exact leaves_pure _

section
variable {R : Bench → Bench → Prop} [IsPreorder Bench R] {variant : Variant}
  (hrender : (c.renderFirst variant).Leaves R)
include hrender

omit hc in
theorem leaves_showSource_of (hprint : ∀ line, (Session.printLine line).Leaves R) :
    (c.showSource variant).Leaves R := by
  unfold showSource
  split
  · exact leaves_bind (hprint _) fun _ => leaves_bind hrender fun _ => hprint _
  · exact leaves_pure _

omit hc in
theorem leaves_keepSource_of {index : Int}
    (hsave : ∀ source, (saveVariant (c.variantPath index) source).Leaves R) (wanted : Bool) :
    (c.keepSource wanted index variant).Leaves R := by
  unfold keepSource
  split
  · exact leaves_bind hrender fun source => leaves_bind (hsave source) fun _ => leaves_pure _
  · exact leaves_pure _

end

omit hc in
theorem leaves_judge (index : Int) (plan : Option CallPlan) (results : List BackendResult) :
    (c.judge index plan results).Leaves (Bench.Left (fun _ => False) F) :=
  leaves_bind (leaves_looking _) fun _ => leaves_bind (leaves_forM leaves_log _) fun _ =>
    leaves_pure _

def IsScratch (p : Place) : Prop := p = EofCompiler.scratchPlace ∨ p = Machine.scratchPlace

theorem leaves_runCall (index : Int) (backend : Backend) (outcome : CompileOutcome)
    (plan : CallPlan) : (c.runCall index backend outcome plan).Leaves
      (Bench.Left (·.role = .run) (FileStore.Swept IsScratch)) := by
  have hexecute : ∀ callData, (c.tools.execute outcome.bytecode callData backend.revision).Leaves
      (Bench.Left (·.role = .run) (FileStore.Swept IsScratch)) := by
    intro callData
    rw [hc.executes]
    refine (Machine.leaves_execute _ _ _ _).mono fun b b' h => h.mono ?_ fun _ _ hs =>
      hs.swept.mono ?_
    · rintro _ rfl
      rfl
    · exact fun _ => Or.inr
  unfold runCall
  dsimp only
  split
  · refine leaves_bind (leaves_looking _) fun callData => ?_
    split
    · exact leaves_bind (leaves_log _) fun _ => leaves_pure _
    · refine leaves_bind (leaves_attempt (hexecute _)) fun ran => ?_
      split
      · exact leaves_pure _
      · exact leaves_bind (leaves_log _) fun _ => leaves_pure _
      · exact leaves_throw _
  · rw [pure_bind]
    exact leaves_bind (leaves_log _) fun _ => leaves_pure _

theorem leaves_compile (variant : Variant) (backend : Backend) :
    (c.tools.compile variant backend).Leaves
      (Bench.Left (fun r => r.Compiling ∧ r.Testing)
        (FileStore.Swept (· = EofCompiler.scratchPlace))) := by
  obtain ⟨user, -, hcompile⟩ := hc.compiles
  rw [hcompile]
  exact Dispatcher.leaves_compile _ _ _

theorem leaves_tryBackend (variant : Variant) (plan : Option CallPlan) (backend : Backend) :
    (c.tryBackend variant plan backend).Leaves
      (Bench.Left (fun r => r.role ≠ .draw ∧ r.Testing) (FileStore.Swept IsScratch)) := by
  have hcompile : (c.tools.compile variant backend).Leaves
      (Bench.Left (fun r => r.role ≠ .draw ∧ r.Testing) (FileStore.Swept IsScratch)) := by
    refine (leaves_compile hc variant backend).mono fun b b' h => h.mono ?_ fun _ _ hs => hs.mono ?_
    · rintro r ⟨hr | hr, ht⟩ <;> exact ⟨by rw [hr]; decide, ht⟩
    · exact fun _ => Or.inl
  refine leaves_bind hcompile fun outcome => ?_
  split
  · exact leaves_bind (leaves_log _) fun _ => leaves_pure _
  · cases plan with
    | none => exact leaves_pure _
    | some plan =>
      refine (leaves_runCall hc _ _ _ _).mono fun b b' h => h.mono ?_ fun _ _ hs => hs
      exact fun r hr => ⟨by rw [hr]; decide, Request.testing_of_role (by rw [hr]; decide)⟩

theorem leaves_tryBackends (variant : Variant) (plan : Option CallPlan) :
    (c.tryBackends variant plan).Leaves
      (Bench.Left (fun r => r.role ≠ .draw ∧ r.Testing) (FileStore.Swept IsScratch)) :=
  leaves_mapM (leaves_tryBackend hc variant plan) _

end

/-! ## Files of a test -/

def sourceName (c : Campaign) (index : Int) : String := s!"{c.baseName}.variant.{index}.sol"

theorem sourceName_ne_dots (c : Campaign) (index : Int) : c.sourceName index ≠ ".." := by
  intro h
  have hlength := congrArg String.length h
  have hvariant : ".variant.".length = 9 := rfl
  have hdots : "..".length = 2 := rfl
  simp only [sourceName, toString, String.length_append, hvariant, hdots] at hlength
  omega

theorem sourceName_inj (c : Campaign) {i j : Nat} (h : c.sourceName i = c.sourceName j) : i = j := by
  unfold sourceName at h
  rw [String.append_left_inj, String.append_right_inj] at h
  have hdigits : Nat.toDigits 10 i = Nat.toDigits 10 j := by
    have htexts : (toString i).toList = (toString j).toList := congrArg String.toList h
    rwa [Nat.toString_eq_repr, Nat.toString_eq_repr, Nat.toList_repr, Nat.toList_repr] at htexts
  calc
    i = Nat.ofDigitChars 10 (Nat.toDigits 10 i) 0 := Nat.ofDigitChars_ten_toDigits.symm
    _ = Nat.ofDigitChars 10 (Nat.toDigits 10 j) 0 := by rw [hdigits]
    _ = j := Nat.ofDigitChars_ten_toDigits

structure Placed (c : Campaign) (d : Place) (files : FileStore) : Prop where
  locate : files.locate c.directory = .ok d
  there : files.at? d = some .directory

theorem Placed.reached {c : Campaign} {d : Place} {files : FileStore} (h : c.Placed d files)
    (name : String) : files.Reached (d.down name) :=
  (FileStore.locate_reached h.locate).down h.there name

theorem Placed.changes {c : Campaign} {d : Place} {files files' : FileStore} {W : Place → Prop}
    (h : c.Placed d files) (hf : files.Changes W files') : c.Placed d files' :=
  ⟨hf.locate h.locate, hf.directory (FileStore.locate_reached h.locate) h.there⟩

/-- A name in the directory leads there at any time if it does at one. -/
theorem Placed.locate_child {c : Campaign} {d p : Place} {files files' : FileStore}
    (h : c.Placed d files) (h' : c.Placed d files') {name : String} (hn : name ≠ "..")
    (hl : files'.locate (c.directory.child name) = .ok p) :
    p = d.down name ∧ files.locate (c.directory.child name) = .ok p := by
  have hp := FileStore.locate_child hn h'.locate hl
  refine ⟨hp, ?_⟩
  obtain ⟨hsize, hw⟩ := FileStore.locate_inv hl
  refine FileStore.locate_of_walk hsize ?_
  have hwalk := (FileStore.locate_inv h.locate).2
  have hwalk' := (FileStore.locate_inv h'.locate).2
  rw [Path.child, FileStore.walk_concat] at hw ⊢
  dsimp only at hw ⊢
  rw [hwalk', ok_bind, FileStore.walk, h'.there] at hw
  rw [hwalk, ok_bind, FileStore.walk, h.there]
  exact hw

/-- What lies between two benches in a test, once the campaign's directory is there: files have
been made or changed at some places only, and no version has been forgotten. -/
structure Around (c : Campaign) (d : Place) (W : Place → Prop) (b b' : Bench) : Prop where
  files : c.Placed d b.files → b.files.Changes W b'.files
  versions : ∀ path version, b.memory.versions.lookup path = some version →
    b'.memory.versions.lookup path = some version

instance (c : Campaign) (d : Place) (W : Place → Prop) : IsPreorder Bench (c.Around d W) where
  refl b := ⟨fun _ => refl_of (FileStore.Changes W) b.files, fun _ _ h => h⟩
  trans b b' b'' h h' := by
    refine ⟨fun hp => ?_, fun path version hv => h'.versions _ _ (h.versions _ _ hv)⟩
    exact trans_of (FileStore.Changes W) (h.files hp) (h'.files (hp.changes (h.files hp)))

theorem Around.mono {c : Campaign} {d : Place} {W W' : Place → Prop} {b b' : Bench}
    (h : c.Around d W b b') (hw : ∀ p, W p → W' p) : c.Around d W' b b' :=
  ⟨fun hp => (h.files hp).mono hw, h.versions⟩

theorem around_of_left {c : Campaign} {d : Place} {W : Place → Prop} {K : Request → Prop}
    {b b' : Bench} (h : b.Left K (FileStore.Changes W) b') : c.Around d W b b' :=
  ⟨fun _ => h.files, h.versions⟩

section
variable {c : Campaign} {settings : Settings} {d : Place} {W : Place → Prop}

/-- In a directory that is there, a source is stored and nothing else is done to the files. -/
theorem run_saveVariant (index : Int) (source : Json) (o : Outside) {b : Bench}
    (hp : c.Placed d b.files) : Stored (c.variantPath index) source b.files
      ((saveVariant (c.variantPath index) source).run o b).1
      ((saveVariant (c.variantPath index) source).run o b).2.files := by
  have hparent : (c.variantPath index).parent = c.directory := Path.parent_child _ _
  rw [saveVariant_eq]
  obtain ⟨fault | made, hr⟩ := run_furnish_there o (hparent ▸ hp.locate) hp.there
  · rw [run_bind_error hr]
    exact .refused fault
  · rw [run_bind_ok hr]
    exact run_storeSource _ _ o b

theorem changes_of_stored {index : Int} {source : Json} {files files' : FileStore}
    {r : Except Fault Bool} (h : Stored (c.variantPath index) source files r files')
    (hp : c.Placed d files) : files.Changes (· = d.down (c.sourceName index)) files' := by
  have hplace : ∀ p, files.locate (c.variantPath index) = .ok p → p = d.down (c.sourceName index) :=
    fun p hl => FileStore.locate_child (c.sourceName_ne_dots index) hp.locate hl
  cases h with
  | refused fault => exact refl_of (FileStore.Changes _) files
  | taken hl hn => exact refl_of (FileStore.Changes _) files
  | broken fault content hl hn =>
    obtain rfl := hplace _ hl
    exact FileStore.changes_put (W := (· = _)) rfl (by rw [hn]; simp) _
  | kept hl hn hs he =>
    obtain rfl := hplace _ hl
    exact FileStore.changes_put (W := (· = _)) rfl (by rw [hn]; simp) _

theorem leaves_saveVariant_around (index : Int) (source : Json) :
    (saveVariant (c.variantPath index) source).Leaves
      (c.Around d (· = d.down (c.sourceName index))) := fun o b =>
  ⟨fun hp => changes_of_stored (run_saveVariant index source o hp) hp,
    (leaves_saveVariant (c.variantPath index) source o b).versions⟩

variable (hc : c.Equipped settings)
include hc

theorem leaves_keepSource (wanted : Bool) (index : Int) (variant : Variant) :
    (c.keepSource wanted index variant).Leaves (c.Around d (· = d.down (c.sourceName index))) :=
  leaves_keepSource_of ((leaves_renderFirst hc variant).mono fun _ _ => around_of_left)
    (leaves_saveVariant_around index) wanted

theorem leaves_showSource (variant : Variant) : (c.showSource variant).Leaves (c.Around d W) := by
  have hprint : ∀ line, (Session.printLine line).Leaves (c.Around d W) := fun line =>
    leaves_modify fun b => ⟨fun _ => refl_of (FileStore.Changes W) b.files, fun _ _ h => h⟩
  exact leaves_showSource_of ((leaves_renderFirst hc variant).mono fun _ _ => around_of_left) hprint

/-- A test makes or changes no file but the source of its variant. -/
theorem leaves_test (index : Int) :
    (c.test index).Leaves (c.Around d (· = d.down (c.sourceName index))) := by
  rw [test_eq]
  refine leaves_bind_of ((leaves_generate hc index).mono fun _ _ => around_of_left)
    (yields_generate hc index) fun variant hv => ?_
  rw [present_eq, hv]
  refine leaves_bind (leaves_bind (leaves_showSource hc variant) fun _ =>
    leaves_keepSource hc _ index variant) fun _ => ?_
  refine leaves_bind ((leaves_planFor variant).mono fun _ _ => around_of_left) fun plan => ?_
  refine leaves_bind ((leaves_tryBackends hc variant plan).mono fun _ _ h =>
    around_of_left (h.mono (fun _ => id) fun _ _ => FileStore.Swept.changes)) fun results => ?_
  refine leaves_bind ((leaves_judge index plan results).mono fun _ _ => around_of_left)
    fun report => ?_
  exact leaves_bind (leaves_keepSource hc _ index variant) fun _ => leaves_pure _

end

end Campaign

end BackendFuzz
