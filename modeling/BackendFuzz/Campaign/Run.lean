import BackendFuzz.Call.Planner
import BackendFuzz.Campaign.Config
import BackendFuzz.Campaign.Results
import BackendFuzz.Campaign.Stats
import BackendFuzz.Divergence.Classifier
import BackendFuzz.Rewriting.Generator

/-!
# Campaigns

Each test takes a variant through every backend: it is generated, one call is
planned, each backend compiles it and runs the call in turn, and the outcomes
are classified and recorded. A campaign makes tests until it has made enough or
its time is up, which is looked at between tests only. However it ends, the
summary is printed last.
-/

namespace BackendFuzz

structure Toolchain where
  generate : Int → Session Variant
  render : SyntaxTree → Backend → Session Json
  compile : Variant → Backend → Session CompileOutcome
  execute : Json → String → Int → Session RunOutcome
  planner : Option Planner

structure Campaign where
  config : CampaignConfig
  seedCount : Nat
  tools : Toolchain
  /-- The first backend is the one whose sources are kept. -/
  first : Backend
  others : List Backend
  baseName : String
  /-- Where the results and the sources of variants go. -/
  directory : Path
  resultsPath : Path

namespace Campaign

def backends (c : Campaign) : List Backend := c.first :: c.others

/-- A campaign on the configured backends; its results file is named for the time and the process. -/
def make (config : CampaignConfig) (seedCount : Nat) (tools : Toolchain) : Session Campaign := do
  match config.versions with
  | [] => throw (.configuration .noBackends)
  | first :: others =>
    let outside ← read
    let baseName ← Session.looking config.baseName
    let directory ← Session.looking (config.outputDirectory.expect Misuse.directory)
    let name := s!"{baseName}.results.{outside.now.stamp}-{outside.processId}.jsonl"
    return {
      config, seedCount, tools
      first := ⟨first⟩
      others := others.map Backend.mk
      baseName
      directory
      resultsPath := directory.child name }

def variantPath (c : Campaign) (index : Int) : Path :=
  c.directory.child s!"{c.baseName}.variant.{index}.sol"

/-! ## One test -/

def renderFirst (c : Campaign) (variant : Variant) : Session Json :=
  c.tools.render variant.tree c.first

def runCall (c : Campaign) (index : Int) (backend : Backend) (outcome : CompileOutcome)
    (plan : CallPlan) : Session BackendResult := do
  let event (level : LogLevel) (message : String) : LogEvent :=
    { level, component := .campaign, message, iteration := some index,
      backend := some backend.version }
  let callData ←
    if outcome.bytecode.truthy then Session.looking (plan.callData outcome.selectors)
    else pure none
  match callData with
  | none =>
    Session.log (event .debug s!"Bytecode or selector for {plan.signature} not found")
    return { compile := outcome, missingExecution := true }
  | some callData =>
    match ← Session.attempt (c.tools.execute outcome.bytecode callData backend.revision) with
    | .ok run => return { compile := outcome, run := some run }
    | .error (.process fault) =>
      Session.log (event .error s!"EVM failed for test {index}: {fault.message}")
      return { compile := outcome, executionError := some fault.message }
    | .error fault => throw fault

def tryBackend (c : Campaign) (variant : Variant) (plan : Option CallPlan) (backend : Backend) :
    Session BackendResult := do
  let outcome ← c.tools.compile variant backend
  if !outcome.success then
    Session.log { level := .debug, component := .campaign,
                  message := s!"Test {variant.index}: compile errors",
                  iteration := some variant.index, backend := some backend.version }
    return { compile := outcome }
  match plan with
  | none => return { compile := outcome }
  | some plan => c.runCall variant.index backend outcome plan

def tryBackends (c : Campaign) (variant : Variant) (plan : Option CallPlan) :
    Session (List BackendResult) :=
  c.backends.mapM (c.tryBackend variant plan)

/-- What a test found, and whether no backend could compile its variant. -/
structure TestReport where
  records : List DivergenceRecord
  skipped : Bool

def judge (c : Campaign) (index : Int) (plan : Option CallPlan) (results : List BackendResult) :
    Session TestReport := do
  let file := (c.variantPath index).text
  let records ← Session.looking (classify results file plan)
  (classificationEvents results file plan).forM Session.log
  return { records, skipped := results.all (!·.compile.success) }

def rule : String := String.ofList (List.replicate 66 '=')

def present (c : Campaign) (variant : Variant) : Session Unit := do
  if c.config.showsSources then
    Session.printLine rule
    Session.printLine (← c.renderFirst variant).display
  if c.config.saveVariants then
    let _ ← saveVariant (c.variantPath variant.index) (← c.renderFirst variant)

/-- Makes one test up to its records; the source of a variant with records is kept. -/
def test (c : Campaign) (index : Int) : Session TestReport := do
  let variant ← c.tools.generate index
  c.present variant
  let plan ← match c.tools.planner with
    | some planner => some <$> planner.plan variant.tree
    | none => pure none
  let results ← c.tryBackends variant plan
  let report ← c.judge index plan results
  if !report.records.isEmpty && !c.config.saveVariants then
    let _ ← saveVariant (c.variantPath index) (← c.renderFirst variant)
  return report

/-! ## All tests -/

inductive Ending where
  /-- All tests that were to be made at most were made. -/
  | spent
  | timeUp
  | faulted (fault : Fault)

def recordedTest (c : Campaign) (index : Int) (results : ResultsFile) :
    Session (ResultsFile × TestReport) := do
  let report ← c.test index
  return (← results.write report.records, report)

def countTest (stats : CampaignStats) (report : TestReport) : CampaignStats :=
  let stats := stats.record report.records
  if report.skipped then { stats with skipped := stats.skipped + 1 } else stats

def progressLine (index : Int) (report : TestReport) (stats : CampaignStats) : String :=
  s!"Test {index}: {report.records.length} failures " ++
    s!"(compilation: {stats.compilation}, fuzzing: {stats.fuzzing})"

def timeUp (deadline : Option Binary64) : Session Bool := do
  match deadline with
  | some deadline => return deadline.le (← Session.readClock)
  | none => return false

/-- Makes tests from `index` on: at most `left` of them, and none after the deadline or a fault. -/
def tests (c : Campaign) (deadline : Option Binary64) :
    Nat → Nat → ResultsFile → CampaignStats → Session (CampaignStats × Ending)
  | 0, _, _, stats => return (stats, .spent)
  | left + 1, index, results, stats => do
    match ← Session.attempt (c.recordedTest index results) with
    | .error fault => return (stats, .faulted fault)
    | .ok (results, report) =>
      let stats := countTest stats report
      Session.printLine (progressLine index report stats)
      if ← timeUp deadline then
        let limit := c.config.timeLimitMs.getD 0
        Session.printLine s!"Time limit of {limit}ms reached. Exiting..."
        return ({ stats with timeLimitReached := true }, .timeUp)
      else tests c deadline left (index + 1) results stats

def deadlineFrom (start : Binary64) (limitMs : Option Int) : Except Fault (Option Binary64) :=
  match limitMs with
  | none => .ok none
  | some ms =>
    match Binary64.ofRatio (ms < 0) ms.natAbs 1000 with
    | .infinite _ => .error (.overflow "integer division result too large for a float")
    | limit => .ok (some (start.add limit))

def conclude (start : Binary64) (stats : CampaignStats) : Session Unit := do
  let duration := ((← Session.readClock).sub start).mul (Binary64.ofInt 1000)
  match duration.round? with
  | none =>
    if duration.isNaN then throw (.value "cannot convert float NaN to integer")
    else throw (.overflow "cannot convert float infinity to integer")
  | some durationMs =>
    let seconds := (duration.divNat 1000).fixedText 1
    Session.log { level := .info, component := .campaign, durationMs := some durationMs,
                  message := s!"Differential fuzzing finished: {stats.tests} tests in {seconds}s" }
    Session.printLine stats.summary

/-- How a campaign ended: its counters, and the fault or the budget that cut it short. -/
inductive CampaignEnd where
  | finished (stats : CampaignStats)
  | faulted (stats : CampaignStats) (fault : Fault)
  /-- A campaign without a number of tests used up the budget for it. -/
  | unfinished (stats : CampaignStats)

def testsAtMost (c : Campaign) (budget : Nat) : Nat :=
  match c.config.testLimit with
  | some n => n.toNat
  | none => budget

/-- Runs a campaign; one without a number of tests makes at most `budget` of them. -/
def run (c : Campaign) (budget : Nat) : Session CampaignEnd := do
  let start ← Session.readClock
  let deadline ← Session.ofExcept (deadlineFrom start c.config.timeLimitMs)
  let backends := ", ".intercalate (c.backends.map (·.version))
  Session.info .campaign
    (s!"Starting differential fuzzing: {c.seedCount} seeds, backends={backends}, " ++
      s!"depth={c.config.rewriteDepth}")
  let (stats, ending) ←
    match ← Session.attempt (ResultsFile.mk c.resultsPath none 0).opened with
    | .error fault => pure ({}, Ending.faulted fault)
    | .ok results => c.tests deadline (c.testsAtMost budget) 0 results {}
  match ← Session.attempt (conclude start stats), ending with
  | .error fault, _ => return .faulted stats fault
  | .ok (), .faulted fault => return .faulted stats fault
  | .ok (), .timeUp => return .finished stats
  | .ok (), .spent =>
    if c.config.testLimit.isNone then return .unfinished stats else return .finished stats

end Campaign

end BackendFuzz
