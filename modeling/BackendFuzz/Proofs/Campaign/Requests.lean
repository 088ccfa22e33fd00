import BackendFuzz.Proofs.Campaign.Iterations
import BackendFuzz.Proofs.Compiler.Turns

/-!
# What campaigns ask for

Rules, seeds, variants, calls and runs are asked for without anything being
learned of compilers; a campaign itself asks for nothing. What its tools leave is
therefore left by its tests and by all of its run.
-/

namespace BackendFuzz

open Session

/-! ## Tools that learn nothing -/

section
variable {K : Request → Prop} {settings : Settings}

theorem keeps_loadRules (h : ∀ fields, K (Engine.request settings .parse fields))
    (path : Option Path) : (loadRules settings path).Leaves (Bench.Keeps K) := by
  unfold loadRules
  split
  · exact leaves_throw _
  · refine leaves_bind (leaves_tryCatch (keeps_readTextFile _) fun fault => ?_) fun text =>
      leaves_bind (leaves_tryCatch ?_ fun fault => ?_) fun rules => ?_
    · split <;> exact leaves_throw _
    · exact leaves_bind (Engine.keeps_call (h _)) fun _ => leaves_looking _
    · split <;> exact leaves_throw _
    · split
      · exact leaves_throw_bind _ _
      · exact leaves_bind (keeps_log _) fun _ => leaves_pure _

theorem Generator.keeps_generate {g : Generator} (hg : g.selector = none)
    (hchoice : ∀ size, K (.choice size)) (hbits : ∀ count, K (.sessionBits count))
    (hrewrite : ∀ fields, K (Engine.request g.settings .rewrite fields))
    (seeds : List SyntaxTree) (index : Int) : (g.generate seeds index).Leaves (Bench.Keeps K) := by
  unfold generate
  simp only [hg]
  split
  · exact leaves_throw_bind _ _
  · refine leaves_bind (keeps_pick (hchoice _)) fun seed => ?_
    split
    · exact leaves_pure _
    · refine leaves_bind (keeps_sessionBits (hbits _)) fun mutation => leaves_bind ?_ fun tree =>
        leaves_bind (keeps_debug _ _) fun _ => leaves_pure _
      exact leaves_bind (Engine.keeps_call (hrewrite _)) fun _ =>
        leaves_bind (leaves_looking _) fun _ => leaves_pure _

theorem keeps_drawInteger (h : ∀ count, K (.callBits count)) (t : IntegerType) :
    (drawInteger t).Leaves (Bench.Keeps K) := by
  unfold drawInteger
  split
  · exact leaves_bind (keeps_callBits (h _)) fun _ => leaves_bind (keeps_callBits (h _)) fun _ =>
      leaves_pure _
  · exact keeps_callBits (h _)

theorem Planner.keeps_plan (h : ∀ count, K (.callBits count)) (p : Planner) (tree : SyntaxTree) :
    (p.plan tree).Leaves (Bench.Keeps K) :=
  leaves_bind (leaves_ofExcept _) fun _ => leaves_bind (leaves_mapM (keeps_drawInteger h) _)
    fun _ => leaves_bind (keeps_debug _ _) fun _ => leaves_pure _

namespace Machine

theorem keeps_writeDump (path : Path) (dump : Option ByteArray) :
    (writeDump path dump).Leaves (Bench.Keeps K) := by
  cases dump with
  | none => exact leaves_pure _
  | some content =>
    show (Session.writeFile path content).Leaves _
    exact keeps_changeFiles _ _

theorem keeps_start {bytecode : Json} {callData : String} {revision : Int}
    (h : K (request settings bytecode callData revision)) :
    (start settings bytecode callData revision).Leaves (Bench.Keeps K) := by
  unfold start
  dsimp only
  refine leaves_bind (keeps_note h) fun before => leaves_bind (leaves_looking _) fun _ =>
    leaves_bind leaves_read fun outside => leaves_bind (keeps_writeDump _ _) fun _ =>
      leaves_bind (keeps_writeDump _ _) fun _ =>
        leaves_bind (leaves_settled _ (leaves_throw _) _) fun ended => ?_
  split
  · exact leaves_bind (keeps_debug _ _) fun _ => leaves_throw_bind _ _
  · exact leaves_bind (keeps_debug _ _) fun _ => leaves_pure _

theorem keeps_execute {bytecode : Json} {callData : String} {revision : Int}
    (h : K (request settings bytecode callData revision)) :
    (execute settings bytecode callData revision).Leaves (Bench.Keeps K) := by
  rw [execute_eq]
  refine leaves_bind (keeps_debug _ _) fun _ => leaves_bind (keeps_withScratch ?_) fun _ =>
    leaves_ofExcept _
  refine leaves_bind (keeps_start h) fun ended => ?_
  split
  · exact leaves_throw _
  · exact leaves_bind (leaves_readDump _ _) fun _ => leaves_bind (leaves_readDump _ _) fun _ =>
      leaves_pure _

end Machine

theorem keeps_saveVariant (path : Path) (source : Json) :
    (saveVariant path source).Leaves (Bench.Keeps K) := by
  refine leaves_bind (keeps_furnish _) fun _ => leaves_bind (leaves_checkPath path) fun _ =>
    leaves_bind leaves_get fun b => ?_
  split
  · split
    · exact leaves_pure _
    · exact leaves_throw _
  · refine leaves_bind (leaves_modify fun _ => Bench.keeps_of_asked rfl rfl) fun _ => ?_
    cases source with
    | text text =>
      exact leaves_bind (leaves_encoded text) fun content => leaves_bind (keeps_changeFiles _ _)
        fun _ => leaves_bind (keeps_debug _ _) fun _ => leaves_pure _
    | _ => exact leaves_throw_bind _ _

theorem ResultsFile.keeps_opened (results : ResultsFile) :
    results.opened.Leaves (Bench.Keeps K) :=
  leaves_bind (keeps_furnish _) fun _ => leaves_bind (keeps_changeFiles _ _) fun _ =>
    leaves_bind (keeps_log _) fun _ => leaves_bind leaves_get fun _ => leaves_pure _

theorem ResultsFile.keeps_write (results : ResultsFile) (records : List DivergenceRecord) :
    (results.write records).Leaves (Bench.Keeps K) := by
  unfold ResultsFile.write
  split
  · exact leaves_throw _
  · split
    · exact leaves_pure _
    · exact leaves_bind (leaves_encoded _) fun _ =>
        leaves_bind (leaves_modify fun _ => Bench.keeps_of_asked rfl rfl) fun _ => leaves_pure _

end

/-! ## Runs -/

namespace Campaign

section
variable {K : Request → Prop}

theorem keeps_judge (c : Campaign) (index : Int) (plan : Option CallPlan)
    (results : List BackendResult) : (c.judge index plan results).Leaves (Bench.Keeps K) :=
  leaves_bind (leaves_looking _) fun _ => leaves_bind (leaves_forM keeps_log _) fun _ =>
    leaves_pure _

theorem keeps_timeUp (deadline : Option Binary64) : (timeUp deadline).Leaves (Bench.Keeps K) := by
  cases deadline with
  | none => exact leaves_pure _
  | some deadline => exact leaves_bind keeps_readClock fun _ => leaves_pure _

theorem keeps_conclude (start : Binary64) (stats : CampaignStats) :
    (conclude start stats).Leaves (Bench.Keeps K) := by
  apply leaves_bind keeps_readClock
  intro now
  dsimp only
  split
  · split <;> exact leaves_throw _
  · exact leaves_bind (keeps_log _) fun _ => keeps_printLine _

end

/-- A relation that regards only what is asked for and remembered, and that the tools leave. -/
structure ToolsLeave (R : Bench → Bench → Prop) (c : Campaign) : Prop where
  still : ∀ b b', b.Keeps (fun _ => False) b' → R b b'
  generate : ∀ index, (c.tools.generate index).Leaves R
  render : ∀ tree, (c.tools.render tree c.first).Leaves R
  plan : ∀ variant, (c.planFor variant).Leaves R
  compile : ∀ variant, ∀ backend ∈ c.backends, (c.tools.compile variant backend).Leaves R
  execute : ∀ bytecode callData revision, (c.tools.execute bytecode callData revision).Leaves R

namespace ToolsLeave

variable {R : Bench → Bench → Prop} [IsPreorder Bench R] {c : Campaign} (h : c.ToolsLeave R)
include h

omit [IsPreorder Bench R] in
theorem log (event : LogEvent) : (Session.log event).Leaves R := (keeps_log event).mono h.still

omit [IsPreorder Bench R] in
theorem print (line : String) : (Session.printLine line).Leaves R :=
  (keeps_printLine line).mono h.still

theorem keepSource (wanted : Bool) (index : Int) (variant : Variant) :
    (c.keepSource wanted index variant).Leaves R :=
  leaves_keepSource_of (h.render variant.tree) (fun source => (keeps_saveVariant _ source).mono h.still)
    wanted

theorem runCall (index : Int) (backend : Backend) (outcome : CompileOutcome) (plan : CallPlan) :
    (c.runCall index backend outcome plan).Leaves R := by
  unfold Campaign.runCall
  dsimp only
  split
  · refine leaves_bind (leaves_looking _) fun callData => ?_
    split
    · exact leaves_bind (h.log _) fun _ => leaves_pure _
    · refine leaves_bind (leaves_attempt (h.execute _ _ _)) fun ran => ?_
      split
      · exact leaves_pure _
      · exact leaves_bind (h.log _) fun _ => leaves_pure _
      · exact leaves_throw _
  · rw [pure_bind]
    exact leaves_bind (h.log _) fun _ => leaves_pure _

theorem tryBackend (variant : Variant) (plan : Option CallPlan) {backend : Backend}
    (hbackend : backend ∈ c.backends) : (c.tryBackend variant plan backend).Leaves R := by
  refine leaves_bind (h.compile variant backend hbackend) fun outcome => ?_
  split
  · exact leaves_bind (h.log _) fun _ => leaves_pure _
  · cases plan with
    | none => exact leaves_pure _
    | some plan => exact h.runCall _ _ _ _

theorem test (index : Int) : (c.test index).Leaves R := by
  rw [test_eq]
  refine leaves_bind (h.generate index) fun variant => ?_
  have hpresent : (c.present variant).Leaves R := by
    rw [present_eq]
    exact leaves_bind (leaves_showSource_of (h.render variant.tree) h.print) fun _ =>
      h.keepSource _ _ variant
  exact leaves_bind hpresent fun _ => leaves_bind (h.plan variant) fun plan =>
    leaves_bind (leaves_mapM_mem fun _ => h.tryBackend variant plan) fun results =>
      leaves_bind ((keeps_judge c index plan results).mono h.still) fun report =>
        leaves_bind (h.keepSource _ index variant) fun _ => leaves_pure _

theorem recordedTest (index : Int) (results : ResultsFile) :
    (c.recordedTest index results).Leaves R :=
  leaves_bind (h.test index) fun report =>
    leaves_bind ((results.keeps_write report.records).mono h.still) fun _ => leaves_pure _

theorem tests (deadline : Option Binary64) (left index : Nat) (results : ResultsFile)
    (stats : CampaignStats) : (c.tests deadline left index results stats).Leaves R := by
  induction left generalizing index results stats with
  | zero => exact leaves_pure _
  | succ left ih =>
    refine leaves_bind (leaves_attempt (h.recordedTest index results)) fun made => ?_
    cases made with
    | error fault => exact leaves_pure _
    | ok made =>
      refine leaves_bind (h.print _) fun _ =>
        leaves_bind ((keeps_timeUp deadline).mono h.still) fun due => ?_
      split
      · exact leaves_bind (h.print _) fun _ => leaves_pure _
      · exact ih _ _ _

theorem run (budget : Nat) : (c.run budget).Leaves R := by
  refine leaves_bind (keeps_readClock.mono h.still) fun start =>
    leaves_bind (leaves_ofExcept _) fun deadline => leaves_bind (h.log _) fun _ =>
      leaves_bind (leaves_attempt ((ResultsFile.keeps_opened _).mono h.still)) fun opened => ?_
  have hlast : ∀ stats ending, (c.summed start stats ending).Leaves R := by
    intro stats ending
    refine leaves_bind (leaves_attempt ((keeps_conclude start stats).mono h.still)) fun last => ?_
    split
    · exact leaves_pure _
    · exact leaves_pure _
    · exact leaves_pure _
    · split <;> exact leaves_pure _
  cases opened with
  | error fault => exact hlast _ _
  | ok results => exact leaves_bind (h.tests _ _ _ _ _) fun x => hlast x.1 x.2

end ToolsLeave

end Campaign

end BackendFuzz
