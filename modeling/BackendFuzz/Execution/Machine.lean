import BackendFuzz.Compiler.Eof
import BackendFuzz.Execution.Outcome

/-!
# The reference machine

A driver program deploys the bytecode, calls it, and dumps storage and events
into two files of a scratch directory. Status and output are read from what it
prints. Bytecode is what a compiler reports, of any shape that a table can have
as a key.
-/

namespace BackendFuzz

namespace Machine

def scratch : Path := Path.ofText "solc-fuzz-evm-scratch"

def storageFile : Path := scratch.child "storage.json"

def logsFile : Path := scratch.child "logs.json"

def available (settings : Settings) : Session Bool :=
  return (← read).onPath settings.evmcPath

def command (settings : Settings) (bytecode : Json) (callData : String) (revision : Int) :
    List Json :=
  [settings.evmcPath, "run", "--vm", settings.evmPath, "--rev", toString revision].map .text ++
    bytecode :: ["--create", "--input", callData, "--storage-dump-file", storageFile.text,
      "--logs-dump-file", logsFile.text].map .text

def writeDump (path : Path) (dump : Option ByteArray) : Session Unit :=
  match dump with
  | some content => Session.writeFile path content
  | none => pure ()

def readDump (path : Path) (what : String) : Session Json := do
  let text ← tryCatch (Session.readTextFile path) fun
    | .file fault => throw (.process { cause := .machineDump what (.unreadable fault) })
    | fault => throw fault
  let onSyntax (fault : Json.SyntaxFault) : Fault :=
    .process { cause := .machineDump what (.malformed fault) }
  Session.ofExcept ((Json.parse text).mapError (Fault.ofParse onSyntax))

def start (settings : Settings) (bytecode : Json) (callData : String) (revision : Int) :
    Session Ended := do
  let command := command settings bytecode callData revision
  let before ← Session.note (.machine command settings.vmTimeout)
  Session.looking bytecode.checkKey
  let reply := (← read).machine before bytecode
  writeDump storageFile reply.storage
  writeDump logsFile reply.logs
  let onTimeout : Session Ended :=
    throw (.process { cause := .machineTimeout settings.vmTimeout, command })
  let ended ← Session.settled settings.evmcPath onTimeout reply.reply
  if ended.code ≠ 0 then
    Session.debug .machine s!"EVM error: {ended.errors}"
    throw (.process { cause := .machineExit ended.code ended.errors, command,
                      code := some ended.code, output := ended.output, errors := ended.errors })
  Session.debug .machine s!"EVM output: {ended.output}"
  return ended

def outcomeOf (output status shown : String) (storage logs : Json) : Except Fault RunOutcome := do
  match storage, logs with
  | .object _, .array entries =>
    let logs ← (entries.mapM LogEntry.ofJson).mapError Fault.misuse
    return { status, output := shown, storage, logs }
  | _, _ => throw (.process { cause := .machineDumpShape, output })

def execute (settings : Settings) (bytecode : Json) (callData : String) (revision : Int) :
    Session RunOutcome := do
  Session.debug .machine s!"Running EVM for revision {revision}"
  let (ended, status, shown, storage, logs) ← withScratch scratch do
    let ended ← start settings bytecode callData revision
    match readReport ended.output with
    | none => throw (.process { cause := .machineStatus, output := ended.output })
    | some (status, shown) =>
      let storage ← readDump storageFile "storage"
      let logs ← readDump logsFile "logs"
      pure (ended, status, shown, storage, logs)
  Session.ofExcept (outcomeOf ended.output status shown storage logs)

end Machine

end BackendFuzz
