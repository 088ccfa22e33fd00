import BackendFuzz.Campaign.Config
import BackendFuzz.CommandLine.Arguments
import BackendFuzz.Fault

/-!
# From arguments to a configuration

The checks that need no other program. Without a rule file, or without a
function for the object format, there is nothing to do.
-/

namespace BackendFuzz

def readCompilerSettings (raw : Option (Given String)) : Except Fault (Option Fields) :=
  match raw with
  | none => .ok none
  | some raw => do
    let raw ← raw.expect fun kind => .misuse (.jsonText kind)
    let onSyntax (fault : Json.SyntaxFault) : Fault := .configuration (.settingsSyntax raw fault)
    match ← (Json.parse raw).mapError (Fault.ofParse onSyntax) with
    | .object fields => return some fields
    | v => throw (.configuration (.settingsShape raw v.kind))

def namesFunction (function : Option (Given String)) : Bool :=
  match function with
  | some (.value name) => !name.isEmpty
  | _ => false

def compared (number : Given Int) (relation : String) : Except Fault Int :=
  number.expect fun kind => .misuse (.order relation kind)

def configure (a : Arguments) (defaultVersion : String) : Except Fault CampaignConfig := do
  if a.rewrites.isNone then throw (.nothingToDo .noRules)
  if a.testEof && !namesFunction a.testCallFunction then throw (.nothingToDo .noTestFunction)
  let rewriteDepth ← compared a.rewriteDepth "<"
  if rewriteDepth < 0 then throw (.configuration (.negativeDepth rewriteDepth))
  let testCount ← a.numTests.mapM (compared · "<")
  if let some n := testCount then
    if n < 1 then throw (.configuration (.tooFewTests n))
  let timeLimitMs ← a.timeLimit.mapM (compared · "<")
  if let some limit := timeLimitMs then
    if limit < 0 then throw (.configuration (.negativeTimeLimit limit))
  return {
    seedFiles := a.seeds
    rulesPath := a.rewrites
    versions := resolveVersions a.compilerVersions a.testEof defaultVersion
    compilerSettings := ← readCompilerSettings a.compilerSettings
    rewriteDepth
    testCount
    testFunction := a.testCallFunction
    withEof := a.testEof
    saveVariants := a.save
    verbosity := a.verbose
    timeLimitMs
    outputDirectory := a.output
    randomSeed := a.seed }

end BackendFuzz
