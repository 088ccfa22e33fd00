import BackendFuzz.Number.Reading
import BackendFuzz.Session
import BackendFuzz.Settings.Basic
import BackendFuzz.Settings.EnvFile
import BackendFuzz.Text.Lowercase

/-!
# Settings from the environment

Each setting is named like its field, in the environment and its file in any
case. A value given outright counts more than one of the environment, that more
than one of the environment file, and what none of them names keeps its default.
All values that cannot be read are reported at once.
-/

namespace BackendFuzz

-- The same instance whatever a module that imports this one adds.
attribute [local instance(high)] instPowNat

namespace Settings

/-- Values by lower-case name. -/
abbrev Named := List (String × String)

def lowerName (name : String) : String := String.ofList (Text.lower name.toList)

def given? (named : Named) (name : String) : Option String :=
  (named.reverse.find? fun n => lowerName n.1 == name).map (·.2)

/-- The value given last for a name in the file; a name without a value counts as not given. -/
def givenInFile? (values : EnvFile.Values) (name : String) : Option String :=
  ((values.reverse.find? fun n => lowerName n.1 == name).map (·.2)).join

abbrev Checked (α : Type) := Except FieldFault α

def readText (name : String) : Json → Checked String
  | .text s => .ok s
  | _ => .error { name, cause := .notText }

def readSeconds (name : String) : Json → Checked Binary64
  | .text s =>
    match readReal? s with
    | some x => .ok x
    | none => .error { name, cause := .notNumber }
  | .int n =>
    match Binary64.ofInt n with
    | .infinite _ => .error { name, cause := .numberShape }
    | x => .ok x
  | .real x => .ok x
  | .bool b => .ok (Binary64.ofInt (if b then 1 else 0))
  | _ => .error { name, cause := .numberShape }

def readTruthWord (name word : String) : Checked Bool :=
  let word := String.ofList (word.toList.map Char.toLower)
  if ["1", "true", "t", "yes", "y", "on"].contains word then .ok true
  else if ["0", "false", "f", "no", "n", "off"].contains word then .ok false
  else .error { name, cause := .notTruth }

/-- One as truth and zero as falsehood; numbers of more than 64 bits are none at all. -/
def readTruthNumber (name : String) (n : Int) : Checked Bool :=
  if n = 1 then .ok true
  else if n = 0 then .ok false
  else if n.natAbs < 2 ^ (63 : Nat) then .error { name, cause := .notTruth }
  else .error { name, cause := .truthShape }

def readTruth (name : String) : Json → Checked Bool
  | .bool b => .ok b
  | .text s => readTruthWord name s
  | .int n => readTruthNumber name n
  | .real x =>
    match x.ratio? with
    | some (a, b) =>
      if a % b = 0 then readTruthNumber name (a / b) else .error { name, cause := .truthShape }
    | none => .error { name, cause := .truthShape }
  | _ => .error { name, cause := .truthShape }

def ofLookup (lookup : String → Option Json) : Except Fault Settings :=
  let field {α : Type} (name : String) (read : String → Json → Checked α) (default : α) :
      Checked α :=
    match lookup name with
    | some value => read name value
    | none => .ok default
  let base : Settings := {}
  let solcPath := field "solc_path" readText base.solcPath
  let solcWrapperPath := field "solc_wrapper_path" readText base.solcWrapperPath
  let solcVersionWrapperPath :=
    field "solc_version_wrapper_path" readText base.solcVersionWrapperPath
  let defaultSolcVersion := field "default_solc_version" readText base.defaultSolcVersion
  let solcInstallMissing := field "solc_install_missing" readTruth base.solcInstallMissing
  let compileTimeout := field "compile_timeout" readSeconds base.compileTimeout
  let evmPath := field "evm_path" readText base.evmPath
  let evmcPath := field "evmc_path" readText base.evmcPath
  let vmTimeout := field "vm_timeout" readSeconds base.vmTimeout
  let rewriterPath := field "rewriter_path" readText base.rewriterPath
  let rewriteTimeout := field "rewrite_timeout" readSeconds base.rewriteTimeout
  let logLevel := field "log_level" readText base.logLevel
  let logPretty := field "log_pretty" readTruth base.logPretty
  let fault {α : Type} (c : Checked α) : List FieldFault :=
    match c with
    | .ok _ => []
    | .error f => [f]
  let faults := fault solcPath ++ fault solcWrapperPath ++ fault solcVersionWrapperPath ++
    fault defaultSolcVersion ++ fault solcInstallMissing ++ fault compileTimeout ++
    fault evmPath ++ fault evmcPath ++ fault vmTimeout ++ fault rewriterPath ++
    fault rewriteTimeout ++ fault logLevel ++ fault logPretty
  if !faults.isEmpty then .error (.fields faults)
  else do
    let or {α : Type} (c : Checked α) : Except Fault α := c.mapError fun f => .fields [f]
    return {
      solcPath := ← or solcPath
      solcWrapperPath := ← or solcWrapperPath
      solcVersionWrapperPath := ← or solcVersionWrapperPath
      defaultSolcVersion := ← or defaultSolcVersion
      solcInstallMissing := ← or solcInstallMissing
      compileTimeout := ← or compileTimeout
      evmPath := ← or evmPath
      evmcPath := ← or evmcPath
      vmTimeout := ← or vmTimeout
      rewriterPath := ← or rewriterPath
      rewriteTimeout := ← or rewriteTimeout
      logLevel := ← or logLevel
      logPretty := ← or logPretty }

def envFile : Path := Path.ofText ".env"

def warn (line : Nat) : Session Unit :=
  Session.log { level := .warning, component := .environment,
                message := s!"python-dotenv could not parse statement starting at line {line}" }

/-- The settings given outright, by an environment, and by the environment file, if there is one. -/
def load (given : Fields) (environment : Named) : Session Settings := do
  let values ←
    if ← Session.isFile envFile then
      let text ← Session.readTextFile envFile
      (EnvFile.unreadableLines text).forM warn
      pure (EnvFile.values environment text)
    else pure []
  Session.ofExcept (ofLookup fun name =>
    match given.get? name, given? environment name with
    | some v, _ => some v
    | none, some value => some (.text value)
    | none, none => (givenInFile? values name).map .text)

end Settings

end BackendFuzz
