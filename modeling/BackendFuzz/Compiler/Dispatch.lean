import BackendFuzz.Compiler.Eof
import BackendFuzz.Compiler.Outcome
import BackendFuzz.Compiler.Standard

/-!
# Dispatch

Routes a variant to the compiler of a backend and brings the result into one
form. A backend that rejects a variant gives a failed outcome; only programs
that time out or print no JSON end the session.
-/

namespace BackendFuzz

structure Dispatcher where
  settings : Settings
  /-- The user's settings for the standard compilers. -/
  user : Option Fields := none

namespace Dispatcher

def render (d : Dispatcher) (tree : SyntaxTree) (backend : Backend) : Session Json := do
  let version ← CompilerVersion.resolve d.settings backend
  Engine.render d.settings tree version

def ofStandard (backend : Backend) (output : StandardOutput) (name : Json) :
    Except Misuse CompileOutcome := do
  if output.success then
    return { backend, success := true, bytecode := ← output.bytecode name,
             selectors := ← output.selectors name }
  else return CompileOutcome.failed backend (← Json.joinLines output.errors)

def ofCombined (backend : Backend) (output : CombinedOutput) : Except Misuse CompileOutcome := do
  if output.success then
    return { backend, success := true, bytecode := ← output.bytecode,
             selectors := ← output.selectors }
  else return CompileOutcome.failed backend (← Json.joinLines output.errors)

/-- The name of the contract to look for: the tree's own, or else its seed's. -/
def targetName (variant : Variant) : Except Misuse Json := do
  let own ← variant.tree.contractName
  if own.truthy then return own else variant.seed.contractName

/-- Whether a standard output succeeded without bytecode for the contract. -/
def lacksBytecode (output : StandardOutput) (name : Json) : Bool :=
  output.success &&
    match output.bytecode name with
    | .ok code => code.isNull
    | .error _ => false

def compile (d : Dispatcher) (variant : Variant) (backend : Backend) :
    Session CompileOutcome := do
  let source ← d.render variant.tree backend
  let name ← Session.looking (targetName variant)
  if backend.isEof then
    let output ← EofCompiler.compile d.settings source
    Session.looking (ofCombined backend output)
  else
    let output ← StandardCompiler.compile d.settings source backend.version d.user
    if lacksBytecode output name then
      Session.debug .dispatcher
        s!"Bytecode not found for contract {name.display}. Version: {backend.version}"
    Session.looking (ofStandard backend output name)

end Dispatcher

end BackendFuzz
