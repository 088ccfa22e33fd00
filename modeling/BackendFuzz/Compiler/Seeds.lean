import BackendFuzz.Compiler.Standard

/-!
# Seeds

Each seed file is compiled once for its syntax tree, and must yield exactly one
source unit.
-/

namespace BackendFuzz

def treeOfOutput (path : Path) (source : String) (output : Json) : Except Fault SyntaxTree := do
  let sources ← (output.fieldOr "sources" (.object [])).mapError Fault.misuse
  let count ← sources.size.mapError Fault.misuse
  if count ≠ 1 then throw (.configuration (.seedUnits path.text count))
  Except.mapError Fault.misuse do
    match ← sources.fieldsFor "values" with
    | (_, first) :: _ =>
      return { unit := ← first.fieldOr "ast" (.object []), fileName := path.name, source }
    | [] => throw .outOfRange

def loadSeed (path : Path) (version : String) (user : Option Fields) : Session SyntaxTree := do
  if !(← Session.isFile path) then throw (.configuration (.seedMissing path.text))
  let source ← Session.readTextFile path
  let input := StandardCompiler.input path.name (.text source) user StandardCompiler.seedSelection
  let text := input.print
  let before ← Session.note (.parseSeed text version ".")
  match (← read).parseSeed before text with
  | .rejected reason => throw (.configuration (.seedRejected path.text version reason))
  | .output output =>
    let tree ← Session.ofExcept (treeOfOutput path source output)
    Session.debug .compiler s!"Loaded seed {path.text}"
    return tree

def loadSeeds (settings : Settings) (paths : List Path) (version : String)
    (user : Option Fields) : Session (List SyntaxTree) := do
  StandardCompiler.ensureInstalled settings version
  paths.mapM fun path => loadSeed path version user

end BackendFuzz
