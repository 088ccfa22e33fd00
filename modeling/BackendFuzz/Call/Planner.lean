import BackendFuzz.Call.ParameterType
import BackendFuzz.Call.Plan
import BackendFuzz.Call.Word
import BackendFuzz.Session
import BackendFuzz.SyntaxTree

/-!
# Call planning

One call of the target function with a random value for each parameter. All
parameters are looked at before the first value is drawn.
-/

namespace BackendFuzz

/-- A uniform value of an integer type: unsigned, all bits; signed, a magnitude and a sign. -/
def drawInteger (t : IntegerType) : Session Int := do
  if t.signed then
    let magnitude ← Session.callBits (t.bits - 1)
    let sign ← Session.callBits 1
    return if sign = 0 then magnitude else -magnitude - 1
  else Session.callBits t.bits

structure Planner where
  functionName : String
  /-- The compiler version whose type rules the parameters were read with. -/
  version : String

namespace Planner

def target (functionName : String) (tree : SyntaxTree) : Except Fault Json := do
  match ← (tree.function? functionName).mapError Fault.misuse with
  | some function => return function
  | none =>
    let contract ← tree.contractName.mapError Fault.misuse
    throw (.configuration (.functionMissing functionName contract tree.fileName))

def parameters (function : Json) : Except Misuse (List Json) := do
  (← (← function.fieldOr "parameters" (.object [])).fieldOr "parameters" (.array [])).items

def parameterTypes (p : Planner) (tree : SyntaxTree) : Except Fault (List IntegerType) := do
  let function ← target p.functionName tree
  (← (parameters function).mapError Fault.misuse).mapM resolveType

/-- Fails early if the tree lacks the target function or has unsupported types. -/
def check (p : Planner) (tree : SyntaxTree) : Except Fault Unit := do
  let _ ← p.parameterTypes tree
  return ()

def plan (p : Planner) (tree : SyntaxTree) : Session CallPlan := do
  let types ← Session.ofExcept (p.parameterTypes tree)
  let values ← types.mapM drawInteger
  let plan : CallPlan := {
    functionName := p.functionName
    types := types.map IntegerType.canonical
    values
    encoded := String.join (values.map encodeWord) }
  let shown := (Json.array (values.map Json.int)).literal
  Session.debug .planner s!"Planned {plan.signature} with {shown} (solc {p.version})"
  return plan

end Planner

end BackendFuzz
