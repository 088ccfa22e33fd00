import BackendFuzz.Campaign.Run
import BackendFuzz.Compiler.Dispatch
import BackendFuzz.Compiler.Seeds
import BackendFuzz.Execution.Machine
import BackendFuzz.Rewriting.RuleFile

/-!
# Setting up a campaign

Everything that can be wrong with rules, seeds, target function and tools is
found here, before the first test.
-/

namespace BackendFuzz

namespace Campaign

/-- The planner of a campaign with a target function, once every seed has been checked. -/
def checkedPlanner (config : CampaignConfig) (settings : Settings) (version : String)
    (seeds : List SyntaxTree) : Session (Option Planner) := do
  match config.testFunction with
  | none => return none
  | some function =>
    let functionName := (function.toJson Json.text).display
    let planner : Planner := { functionName, version }
    seeds.forM fun seed => Session.ofExcept (planner.check seed)
    if !(← Machine.available settings) then
      throw (.configuration (.machineMissing settings.evmcPath))
    return some planner

def build (config : CampaignConfig) (settings : Settings) : Session Campaign := do
  let rulesPath ← Session.looking
    (config.rulesPath.mapM (·.expect fun kind => .feature kind "read_text"))
  let rules ← loadRules settings rulesPath
  let version ← Session.looking config.compilerVersion
  let seeds ← loadSeeds settings config.seedFiles version config.compilerSettings
  let planner ← checkedPlanner config settings version seeds
  let seed ← Session.looking (config.randomSeed.mapM (·.expect Misuse.key))
  let _ ← Session.note (.seedGenerator seed)
  let generator ← Session.ofExcept (Generator.make settings rules config.rewriteDepth none)
  let dispatcher : Dispatcher := { settings, user := config.compilerSettings }
  make config seeds.length {
    generate := generator.generate seeds
    render := dispatcher.render
    compile := dispatcher.compile
    execute := Machine.execute settings
    planner }

end Campaign

end BackendFuzz
