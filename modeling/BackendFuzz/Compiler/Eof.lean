import BackendFuzz.Backend
import BackendFuzz.Call.Selectors
import BackendFuzz.Execution.Status
import BackendFuzz.Session
import BackendFuzz.Settings.Basic

/-!
# The object-format compiler

A build that is run through a wrapper on a source file and prints one object
with a flat entry for each contract. Its version is asked for once a session.
-/

namespace BackendFuzz

/-- A directory of its own for as long as a program runs. -/
def withScratch {α : Type} (directory : Path) (body : Session α) : Session α := do
  Session.changeFiles directory FileStore.makeDirectory
  Session.ensuring body (modify fun b => { b with files := b.files.removeTree directory })

structure CombinedOutput where
  contracts : Json := .object []
  errors : List Json := []

namespace CombinedOutput

def success (o : CombinedOutput) : Bool := o.errors.isEmpty

def firstEntry (o : CombinedOutput) : Except Misuse Json := do
  match ← o.contracts.fieldsFor "values" with
  | (_, entry) :: _ => return entry
  | [] => return .null

def bytecode (o : CombinedOutput) : Except Misuse Json := do
  let entry ← o.firstEntry
  if entry.isNull then return .null
  let code ← entry.field "bin"
  return if code.truthy then code else .null

def selectors (o : CombinedOutput) : Except Misuse Selectors := do
  let entry ← o.firstEntry
  if entry.isNull then return {}
  Selectors.ofJson (← entry.fieldOr "hashes" (.object []))

end CombinedOutput

namespace EofCompiler

def scratch : Path := Path.ofText "solc-fuzz-eof-scratch"

def sourceFile : Path := scratch.child "eof_temp.sol"

def outputOf (command : List String) (ended : Ended) : Except Fault CombinedOutput := do
  if ended.code ≠ 0 then
    let shown := s!"Compiler exited with code {ended.code}, stderr: {ended.errors}"
    return { errors := [.text shown] }
  else if Json.occursIn "Error:".toList ended.errors.toList then
    return { errors := [.text s!"Compiler exited with non-empty stderr: {ended.errors}"] }
  else
    let onSyntax (fault : Json.SyntaxFault) : Fault :=
      .process { cause := .eofOutput fault, command := command.map .text, code := some ended.code,
                 output := ended.output, errors := ended.errors }
    let output ← (Json.parse ended.output).mapError (Fault.ofParse onSyntax)
    return { contracts := ← (output.fieldOr "contracts" (.object [])).mapError Fault.misuse }

def compile (settings : Settings) (source : Json) : Session CombinedOutput := do
  let command := ["bash", settings.solcWrapperPath, sourceFile.text]
  let ended ← withScratch scratch do
    match source with
    | .text text =>
      Session.writeFile sourceFile (← Session.encoded text)
      let before ← Session.note
        (.eofCompiler command settings.compileTimeout text settings.solcPath)
      let onTimeout : Session Ended :=
        throw (.process { cause := .eofTimeout settings.compileTimeout,
                          command := command.map .text })
      Session.settled "bash" onTimeout ((← read).eofCompiler before)
    | v => throw (.misuse (.content v.kind))
  if ended.code ≠ 0 then
    Session.debug .eofCompiler s!"EOF compiler exited with code {ended.code}"
  Session.ofExcept (outputOf command ended)

end EofCompiler

namespace CompilerVersion

def digits? (cs : List Char) : Option (List Char × List Char) :=
  let run := cs.takeWhile Text.isDigit
  if run.isEmpty then none else some (run, cs.dropWhile Text.isDigit)

def dot? : List Char → Option (List Char)
  | '.' :: rest => some rest
  | _ => none

/-- The version right behind the label and one blank. -/
def versionHere (cs : List Char) : Option (List Char) := do
  match ← Report.after? "Version:".toList cs with
  | blank :: rest =>
    if Text.isBlank blank then
      let (major, rest) ← digits? rest
      let (minor, rest) ← digits? (← dot? rest)
      let (patch, _) ← digits? (← dot? rest)
      return major ++ '.' :: minor ++ '.' :: patch
    else none
  | [] => none

def versionIn : List Char → Option (List Char)
  | [] => versionHere []
  | c :: rest =>
    match versionHere (c :: rest) with
    | some version => some version
    | none => versionIn rest

def told? (ended : Ended) : Option String :=
  if ended.code = 0 then (versionIn ended.output.toList).map String.ofList else none

def unknown (reason : String) : Session Unit :=
  Session.debug .eofCompiler ("Returning default compiler version" ++ reason)

/-- The version of the compiler at a path, asked for once; the default one if it does not tell. -/
def query (settings : Settings) (path : String) : Session String := do
  match (← get).memory.versions.lookup path with
  | some version => return version
  | none =>
    let command := ["bash", settings.solcVersionWrapperPath, path]
    let before ← Session.note (.eofVersion command settings.compileTimeout)
    let version ← match (← read).eofVersion before with
      | .ended ended =>
        match told? ended with
        | some version => pure version
        | none =>
          unknown s!". Code: {ended.code}. Stdout: {ended.output}"
          pure settings.defaultSolcVersion
      | .timedOut =>
        let shown := (Json.texts command).literal
        unknown s!": Command '{shown}' timed out after {settings.compileTimeout.text} seconds"
        pure settings.defaultSolcVersion
      | .missing =>
        unknown (": " ++ (FileFault.mk .absent "bash").message)
        pure settings.defaultSolcVersion
      | other => do
        let _ ← Session.settled "bash" (throw .interrupted) other
        pure settings.defaultSolcVersion
    Session.debug .eofCompiler s!"Resolved compiler version {path} => {version}"
    modify fun b =>
      { b with memory := { b.memory with versions := b.memory.versions ++ [(path, version)] } }
    return version

def resolve (settings : Settings) (backend : Backend) : Session String :=
  if backend.isEof then query settings settings.solcPath else pure backend.version

end CompilerVersion

end BackendFuzz
