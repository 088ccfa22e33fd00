import BackendFuzz.Json.Misuse

/-!
# Syntax trees

One source unit as the compiler prints it. The target contract is the first
contract of the unit. A look-up reads the nodes in order and no further than it
has to, so nodes of a wrong shape behind the answer do no harm.
-/

namespace BackendFuzz

structure SyntaxTree where
  unit : Json
  fileName : String
  /-- The text the tree was read from, if any; for information only. -/
  source : String := ""

namespace SyntaxTree

def isNode (type : String) (node : Json) : Except Misuse Bool := do
  return (← node.field "nodeType").isText type

def children (node : Json) : Except Misuse (List Json) := do
  (← node.fieldOr "nodes" (.array [])).items

def firstContractAmong : List Json → Except Misuse (Option Json)
  | [] => .ok none
  | node :: rest => do
    if ← isNode "ContractDefinition" node then return some node else firstContractAmong rest

def firstContract (t : SyntaxTree) : Except Misuse (Option Json) := do
  firstContractAmong (← children t.unit)

def contractNames (t : SyntaxTree) : Except Misuse (List Json) := do
  let contracts ← (← children t.unit).filterM (isNode "ContractDefinition")
  contracts.mapM (·.field "name")

def contractName (t : SyntaxTree) : Except Misuse Json := do
  match ← t.firstContract with
  | some contract => contract.field "name"
  | none => return .null

def isFunction (name : String) (node : Json) : Except Misuse Bool := do
  if ← isNode "FunctionDefinition" node then return (← node.field "name").isText name
  else return false

def functionAmong (name : String) : List Json → Except Misuse (Option Json)
  | [] => .ok none
  | node :: rest => do
    if ← isFunction name node then return some node else functionAmong name rest

def function? (t : SyntaxTree) (name : String) : Except Misuse (Option Json) := do
  match ← t.firstContract with
  | some contract => functionAmong name (← children contract)
  | none => return none

end SyntaxTree

/-- A mutated derivative of a seed, tested in one iteration. -/
structure Variant where
  /-- The number of the iteration it was made for. -/
  index : Int
  tree : SyntaxTree
  seed : SyntaxTree
  depth : Int := 0

end BackendFuzz
