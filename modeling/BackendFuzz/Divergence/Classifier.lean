import BackendFuzz.Call.Plan
import BackendFuzz.Compiler.Outcome
import BackendFuzz.Divergence.Record
import BackendFuzz.Execution.Outcome
import BackendFuzz.Log.Event

/-!
# Classification

What the backends made of one variant, as divergence records. A backend is
reported only if another one got further: nothing when no compile succeeded, one
record for each that did not compile, then, once some call ran, one for each
that could not run, and last one for each run that differs from the base.
-/

namespace BackendFuzz

/-- Everything one backend produced for one variant. -/
structure BackendResult where
  compile : CompileOutcome
  run : Option RunOutcome := none
  missingExecution : Bool := false
  executionError : Option String := none

namespace BackendResult

def version (r : BackendResult) : String := r.compile.backend.version

def compared (r : BackendResult) : Option RunOutcome :=
  match r.run with
  | some run => some run
  | none => if r.missingExecution then some RunOutcome.noOp else none

def runStatus (r : BackendResult) : Option String := r.compared.map (·.status)

def succeeded (r : BackendResult) : Bool :=
  match r.run with
  | some run => run.succeeded
  | none => false

end BackendResult

/-- The index of the first backend whose run succeeded. -/
def baseIndex? (results : List BackendResult) : Option Nat :=
  results.findIdx? (·.succeeded)

namespace Classifier

def compileRecord (file : String) (r : BackendResult) : DivergenceRecord :=
  { category := .compileMismatch, file, version := r.version, error := some r.compile.error }

/-- A record about the call, with the call as the backend got it. -/
def callRecord (category : DivergenceCategory) (file : String) (plan : CallPlan)
    (r : BackendResult) (run : Option RunOutcome) (error : Option String)
    (kinds : Option (List Part)) : Except Misuse DivergenceRecord := do
  let encodedCall ← plan.callData r.compile.selectors
  return {
    category
    file
    version := r.version
    error
    functionName := some plan.functionName
    encodedCall
    callParameters := some plan.valueTexts
    runResult := run.map (·.fields)
    kinds := kinds.map (·.map Part.name) }

def unrunRecord (file : String) (plan : CallPlan) (r : BackendResult) :
    Except Misuse (Option DivergenceRecord) := do
  if r.missingExecution then
    return some (← callRecord .missingExecution file plan r (some RunOutcome.noOp) none none)
  else
    match r.executionError with
    | some error => return some (← callRecord .executionError file plan r none (some error) none)
    | none => return none

def allSame (results : List BackendResult) : Bool :=
  match results.filterMap (·.compared) with
  | [] => true
  | first :: rest => rest.all (·.same first)

/-- The base run and the other runs that diverge from it, with the parts; none without a base. -/
def diverging (results : List BackendResult) :
    Option (BackendResult × List (BackendResult × RunOutcome × List Part)) := do
  let i ← baseIndex? results
  let base ← results[i]?
  let baseRun ← base.run
  let others := results.zipIdx.filterMap fun (r, j) =>
    match r.run with
    | some run =>
      let parts := run.divergencesFrom baseRun
      if j = i ∨ parts.isEmpty then none else some (r, run, parts)
    | none => none
  return (base, others)

def runRecords (results : List BackendResult) (file : String) (plan : CallPlan) :
    Except Misuse (List DivergenceRecord) :=
  if allSame results then .ok []
  else
    match diverging results with
    | none => .ok []
    | some (_, others) =>
      others.mapM fun (r, run, parts) =>
        callRecord .outputMismatch file plan r (some run) none (some parts)

end Classifier

/-- The divergence records of one variant, in the order of the groups and of the backends. -/
def classify (results : List BackendResult) (file : String) (plan : Option CallPlan) :
    Except Misuse (List DivergenceRecord) := do
  if !results.any (·.compile.success) then return []
  let failed := (results.filter (!·.compile.success)).map (Classifier.compileRecord file)
  match plan with
  | none => return failed
  | some plan =>
    if !results.any (·.run.isSome) then return failed
    let unrun ← results.mapM (Classifier.unrunRecord file plan)
    let diverged ← Classifier.runRecords results file plan
    return failed ++ unrun.filterMap id ++ diverged

def classificationEvents (results : List BackendResult) (file : String) (plan : Option CallPlan) :
    List LogEvent :=
  let event (level : LogLevel) (message : String) : LogEvent :=
    { level, component := .classifier, message }
  if !results.any (·.compile.success) then
    [event .debug s!"All backends failed to compile {file}; skipping"]
  else if plan.isNone || !results.any (·.run.isSome) || Classifier.allSame results then []
  else
    match Classifier.diverging results with
    | none => [event .debug s!"No successful run to compare against for {file}"]
    | some (base, others) =>
      others.map fun (r, _, parts) =>
        let kinds := ", ".intercalate (parts.map Part.name)
        event .info s!"{r.version} diverges from {base.version} on {file}: {kinds}"

end BackendFuzz
