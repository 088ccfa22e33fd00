import BackendFuzz.Call.Selectors
import BackendFuzz.Rewriting.Engine

/-!
# Standard compilers

A released compiler takes one JSON object with source and settings, and prints
one with diagnostics and contracts by file and name.
-/

namespace BackendFuzz

/-- The name under which every variant is compiled. -/
def variantFileName : String := "foo.sol"

structure StandardOutput where
  contracts : Json := .object []
  errors : List Json := []

namespace StandardOutput

def success (o : StandardOutput) : Bool := o.errors.isEmpty

/-- A place in an object by a key of any shape; only texts are found. -/
def byKey (j key : Json) : Except Misuse Json := do
  let fields ← j.fieldsFor "get"
  key.checkKey
  match key with
  | .text name => return (Fields.get? fields name).getD .null
  | _ => return .null

def contract (o : StandardOutput) (name : Json) : Except Misuse Json := do
  if name.isNull then return .null
  byKey (← o.contracts.fieldOr variantFileName (.object [])) name

def bytecode (o : StandardOutput) (name : Json) : Except Misuse Json := do
  let contract ← o.contract name
  if contract.isNull then return .null
  let evm ← contract.fieldOr "evm" (.object [])
  let object ← (← evm.fieldOr "bytecode" (.object [])).field "object"
  return if object.truthy then object else .null

def selectors (o : StandardOutput) (name : Json) : Except Misuse Selectors := do
  let contract ← o.contract name
  if contract.isNull then return {}
  let evm ← contract.fieldOr "evm" (.object [])
  Selectors.ofJson (← evm.fieldOr "methodIdentifiers" (.object []))

def diagnostic (error : Json) : Except Misuse Json := do
  let plain ← error.fieldOr "message" (.text "")
  error.fieldOr "formattedMessage" plain

def isError (error : Json) : Except Misuse Bool := do
  return (← error.field "severity").isText "error"

/-- The messages of the diagnostics that are errors. -/
def diagnostics : List Json → Except Misuse (List Json)
  | [] => .ok []
  | d :: rest => do
    if ← isError d then
      let message ← diagnostic d
      return message :: (← diagnostics rest)
    else diagnostics rest

def parse (stdout : String) : Except Fault StandardOutput := do
  let onSyntax (fault : Json.SyntaxFault) : Fault :=
    .process { cause := .compilerOutput fault, output := stdout }
  let output ← (Json.parse stdout).mapError (Fault.ofParse onSyntax)
  Except.mapError Fault.misuse do
    let errors ← diagnostics (← (← output.fieldOr "errors" (.array [])).items)
    return { contracts := ← output.fieldOr "contracts" (.object []), errors }

end StandardOutput

namespace StandardCompiler

def ensureInstalled (settings : Settings) (version : String) : Session Unit := do
  if (← get).memory.installed.contains version then return
  let before ← Session.note .installedVersions
  let installed := (← read).installed before
  if !installed.contains version then
    if !settings.solcInstallMissing then throw (.configuration (.compilerMissing version))
    Session.info .compiler s!"Installing solc {version}"
    let before ← Session.note (.install version)
    match (← read).install before version with
    | some reason => throw (.installation reason)
    | none => pure ()
  modify fun b =>
    { b with memory := { b.memory with installed := b.memory.installed ++ [version] } }

/-- The user's settings with the selection of outputs that is needed. -/
def withSelection (user : Option Fields) (selection : Json) : Json :=
  .object (Fields.put (user.getD []) "outputSelection" selection)

def input (fileName : String) (content : Json) (user : Option Fields) (selection : Json) : Json :=
  .object [
    ("language", .text "Solidity"),
    ("sources", .object [(fileName, .object [("content", content)])]),
    ("settings", withSelection user selection)]

def variantSelection : Json :=
  .object [("*", .object [("*", Json.texts ["evm.bytecode.object", "evm.methodIdentifiers"])])]

def seedSelection : Json := .object [("*", .object [("", Json.texts ["ast"])])]

def executable (version : String) : String := s!"/solc/solc-{version}"

def outputOf (ended : Ended) : Except Fault StandardOutput :=
  if ended.code ≠ 0 then
    let reason := Text.trimmed ended.errors
    let shown := if reason.isEmpty then s!"solc exited with code {ended.code}" else reason
    .ok { errors := [.text shown] }
  else StandardOutput.parse ended.output

def compile (settings : Settings) (source : Json) (version : String) (user : Option Fields) :
    Session StandardOutput := do
  ensureInstalled settings version
  let command := [executable version, "--standard-json"]
  let text := (input variantFileName source user variantSelection).print
  let before ← Session.note (.compiler command settings.compileTimeout text)
  let onTimeout : Session Ended :=
    throw (.process { cause := .compilerTimeout version settings.compileTimeout,
                      command := command.map .text })
  let ended ← Session.settled (executable version) onTimeout ((← read).compiler before version)
  if ended.code ≠ 0 then
    Session.debug .compiler s!"solc {version} exited with code {ended.code}"
  Session.ofExcept (outputOf ended)

end StandardCompiler

end BackendFuzz
