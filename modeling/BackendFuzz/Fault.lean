import BackendFuzz.FileStore
import BackendFuzz.Json.Misuse
import BackendFuzz.Json.Parser
import BackendFuzz.Text.Utf8

/-!
# Faults

Everything that can end an operation, by cause. `Fault.message` has the wording.
-/

namespace BackendFuzz

/-! ## Nothing to do -/

inductive NothingToDo where
  | noRules
  | noTestFunction
  deriving DecidableEq, Repr

def NothingToDo.message : NothingToDo → String
  | noRules => "No re-write rules specified"
  | noTestFunction => "No test call function specified"

/-! ## Rewriting -/

inductive RewriteAction where
  | parse
  | rewrite
  | render
  deriving DecidableEq, Repr

def RewriteAction.name : RewriteAction → String
  | parse => "parse"
  | rewrite => "rewrite"
  | render => "render"

inductive RewriteFault where
  | noRules
  | negativeDepth (depth : Int)
  /-- The engine refused, at a line and column if it named one. -/
  | rejected (action : RewriteAction) (location : Option (Json × Json)) (reason : Json)
  | exited (code : Int) (errors : String)

def RewriteFault.message : RewriteFault → String
  | noRules => "Rule set contains no rewrite rules"
  | negativeDepth depth => s!"Rewrite depth must be non-negative, got {depth}"
  | rejected action location reason =>
    let place := match location with
      | some (line, column) => s!"{line.display}:{column.display}: "
      | none => ""
    s!"{action.name} failed: {place}{reason.display}"
  | exited code errors => s!"Rewrite engine exited with code {code}: {errors}"

/-! ## Configuration -/

inductive ConfigurationFault where
  | rulesUnreadable (path : String) (fault : FileFault)
  | rulesRejected (fault : RewriteFault)
  | engineMissing (command : String)
  | compilerMissing (version : String)
  | seedMissing (path : String)
  | seedRejected (path version reason : String)
  | seedUnits (path : String) (count : Nat)
  | noSeeds
  | functionMissing (name : String) (contract : Json) (file : String)
  | machineMissing (command : String)
  | noBackends
  | negativeDepth (depth : Int)
  | tooFewTests (count : Int)
  | negativeTimeLimit (limit : Int)
  | settingsSyntax (raw : String) (fault : Json.SyntaxFault)
  | settingsShape (raw kind : String)

def ConfigurationFault.message : ConfigurationFault → String
  | rulesUnreadable path fault => s!"Cannot read rewrites file '{path}': {fault.message}"
  | rulesRejected fault => s!"Error parsing rewrites: {fault.message}"
  | engineMissing command => s!"Rewrite engine '{command}' not found"
  | compilerMissing version =>
    s!"solc {version} is not installed and SOLC_INSTALL_MISSING is off"
  | seedMissing path => s!"Seed file '{path}' does not exist"
  | seedRejected path version reason =>
    s!"Unable to compile seed '{path}' with solc {version}:\n{reason}"
  | seedUnits path count => s!"Expected a single source unit in '{path}', got {count}"
  | noSeeds => "No seed programs to mutate"
  | functionMissing name contract file =>
    s!"Function {name} not found in contract {contract.display} ({file})"
  | machineMissing command => s!"EVM driver '{command}' not found"
  | noBackends => "At least one compiler version is required"
  | negativeDepth depth => s!"--rewrite-depth must be non-negative, got {depth}"
  | tooFewTests count => s!"--num-tests must be positive, got {count}"
  | negativeTimeLimit limit => s!"--time-limit must be non-negative, got {limit}"
  | settingsSyntax raw fault =>
    s!"Invalid compiler settings '{raw}'. Compiler settings must be a valid JSON object " ++
      s!"({fault.message})."
  | settingsShape raw kind =>
    s!"Invalid compiler settings '{raw}'. Compiler settings must be a valid JSON object " ++
      s!"(got {kind})."

structure UnsupportedParameter where
  type : String
  name : Json

def UnsupportedParameter.message (p : UnsupportedParameter) : String :=
  let place := if p.name.truthy then s!" for parameter '{p.name.display}'" else ""
  s!"Unsupported parameter type '{p.type}'{place}"

/-! ## Other programs -/

inductive DumpFault where
  | unreadable (fault : FileFault)
  | malformed (fault : Json.SyntaxFault)

def DumpFault.message : DumpFault → String
  | unreadable fault => fault.message
  | malformed fault => fault.message

inductive ProcessCause where
  | engineTimeout (seconds : Binary64)
  | engineOutput (fault : Json.SyntaxFault)
  | compilerTimeout (version : String) (seconds : Binary64)
  | compilerOutput (fault : Json.SyntaxFault)
  | eofTimeout (seconds : Binary64)
  | eofOutput (fault : Json.SyntaxFault)
  | machineTimeout (seconds : Binary64)
  | machineExit (code : Int) (errors : String)
  | machineStatus
  | machineDump (what : String) (fault : DumpFault)
  | machineDumpShape
  /-- As a substitute for a program reports it. -/
  | reported (message : String)

def ProcessCause.message : ProcessCause → String
  | engineTimeout seconds => s!"Rewrite engine timed out after {seconds.text}s"
  | engineOutput fault => s!"Unparsable rewrite engine output: {fault.message}"
  | compilerTimeout version seconds => s!"solc {version} timed out after {seconds.text}s"
  | compilerOutput fault => s!"Unparsable solc output: {fault.message}"
  | eofTimeout seconds => s!"EOF compiler timed out after {seconds.text}s"
  | eofOutput fault => s!"Error parsing EOF compiler output: {fault.message}"
  | machineTimeout seconds => s!"EVM timed out after {seconds.text}s"
  | machineExit code errors => s!"EVM exited with code {code}: {Text.trimmed errors}"
  | machineStatus => "Error parsing EVM result status"
  | machineDump what fault => s!"Error reading EVM {what} dump: {fault.message}"
  | machineDumpShape => "Unexpected EVM dump shape"
  | reported message => message

structure ProcessFault where
  cause : ProcessCause
  command : List Json := []
  code : Option Int := none
  output : String := ""
  errors : String := ""

def ProcessFault.message (f : ProcessFault) : String := f.cause.message

/-! ## Settings and records -/

inductive FieldCause where
  | absent
  | notText
  | notList
  | notObject
  | notMember
  /-- A text that spells no number, or a value of another shape. -/
  | notNumber
  | numberShape
  /-- A text or number that stands for no truth value, or a value of another shape. -/
  | notTruth
  | truthShape
  deriving DecidableEq, Repr

/-- A refused field: its name, and the index inside it if an item is refused. -/
structure FieldFault where
  name : String
  index : Option Nat := none
  cause : FieldCause
  deriving DecidableEq, Repr

/-! ## All faults -/

inductive Fault where
  | nothingToDo (cause : NothingToDo)
  | configuration (cause : ConfigurationFault)
  | parameter (cause : UnsupportedParameter)
  | rewrite (cause : RewriteFault)
  | process (fault : ProcessFault)
  /-- A value had the wrong shape. -/
  | misuse (cause : Misuse)
  | file (fault : FileFault)
  | encoding (fault : Text.Utf8Fault)
  /-- A text that has no form in bytes. -/
  | unencodable (run : Text.LoneRun)
  | path (flaw : Path.Flaw)
  /-- JSON whose arrays and objects lie too deep inside each other. -/
  | tooDeep (nest : Json.Nest)
  | fields (faults : List FieldFault)
  /-- Records were written to a results file that is not open. -/
  | resultsClosed
  | installation (reason : String)
  /-- A value that is not accepted, with the reason. -/
  | value (reason : String)
  /-- A number too large for its form. -/
  | overflow (reason : String)
  /-- A text too large to be held. -/
  | memory
  /-- A level of the wrong kind for logging. -/
  | levelKind
  | interrupted

namespace Fault

def message : Fault → String
  | nothingToDo cause => cause.message
  | configuration cause => cause.message
  | parameter cause => cause.message
  | rewrite cause => cause.message
  | process fault => fault.message
  | misuse cause => cause.message
  | file fault => fault.message
  | encoding fault => fault.message
  | unencodable run => run.message
  | path flaw => flaw.message
  | tooDeep nest =>
    s!"maximum recursion depth exceeded while decoding a JSON {nest.name} from a unicode string"
  | fields faults => s!"{faults.length} validation errors"
  | resultsClosed => "ResultSink is not open"
  | installation reason => reason
  | value reason => reason
  | overflow reason => reason
  | memory => ""
  | levelKind => "Level not an integer or a valid string"
  | interrupted => ""

/-- The name that a fault is logged under. -/
def kind : Fault → String
  | nothingToDo _ => "NoOpError"
  | configuration _ => "ConfigurationError"
  | parameter _ => "UnsupportedParameterType"
  | rewrite _ => "RewriteError"
  | process _ => "ProcessError"
  | misuse cause => cause.kind
  | file fault => fault.cause.kind
  | encoding _ => "UnicodeDecodeError"
  | unencodable _ => "UnicodeEncodeError"
  | path (.unencodable _) => "UnicodeEncodeError"
  | path .nul => "ValueError"
  | tooDeep _ => "RecursionError"
  | fields _ => "ValidationError"
  | resultsClosed => "RuntimeError"
  | installation _ => "SolcInstallationError"
  | value _ => "ValueError"
  | overflow _ => "OverflowError"
  | memory => "MemoryError"
  | levelKind => "TypeError"
  | interrupted => "KeyboardInterrupt"

/-- The failure of a value that is not even JSON, given what a breach of the grammar means. -/
def ofParse (onSyntax : Json.SyntaxFault → Fault) : Json.ParseFault → Fault
  | .malformed fault => onSyntax fault
  | .tooLong count => misuse (.digits count)
  | .tooDeep nest => tooDeep nest

end Fault

end BackendFuzz
