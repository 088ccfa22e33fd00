import BackendFuzz.Fault
import BackendFuzz.Json.Printer

/-!
# Divergence records

A classified failure, one line of the results file. A record is read from named
fields, some of which have a second name; everything wrong with them is
reported at once.
-/

namespace BackendFuzz

inductive DivergenceCategory where
  | compileMismatch
  | missingExecution
  | outputMismatch
  | executionError
  deriving DecidableEq, Repr

namespace DivergenceCategory

def all : List DivergenceCategory :=
  [compileMismatch, missingExecution, outputMismatch, executionError]

def name : DivergenceCategory → String
  | compileMismatch => "compile-mismatch"
  | missingExecution => "missing-execution"
  | outputMismatch => "output-mismatch"
  | executionError => "execution-error"

def ofName? (s : String) : Option DivergenceCategory := all.find? (·.name == s)

def tag : DivergenceCategory → String
  | compileMismatch => "compilation:error"
  | missingExecution => "fuzzing:no-fuzzing"
  | outputMismatch => "fuzzing:output-mismatch"
  | executionError => "fuzzing:execution-error"

def isCompilation : DivergenceCategory → Bool
  | compileMismatch => true
  | _ => false

end DivergenceCategory

structure DivergenceRecord where
  category : DivergenceCategory
  file : String
  version : String
  error : Option String := none
  functionName : Option String := none
  encodedCall : Option String := none
  callParameters : Option (List String) := none
  runResult : Option Fields := none
  kinds : Option (List String) := none

namespace DivergenceRecord

def optional (name : String) (v : Option Json) : Fields := (v.map fun v => (name, v)).toList

/-- The record's line as fields: the tag first, and no field without a value. -/
def fields (r : DivergenceRecord) : Fields :=
  [("failure", .text r.category.tag), ("file", .text r.file), ("version", .text r.version)] ++
    optional "error" (r.error.map .text) ++
    optional "functionName" (r.functionName.map .text) ++
    optional "encodedCall" (r.encodedCall.map .text) ++
    optional "callParameters" (r.callParameters.map Json.texts) ++
    optional "runResult" (r.runResult.map .object) ++
    optional "kinds" (r.kinds.map Json.texts)

def toJson (r : DivergenceRecord) : Json := .object r.fields

def line (r : DivergenceRecord) : String := r.toJson.print ++ "\n"

/-! ## Reading -/

abbrev Checked (α : Type) := Except (List FieldFault) α

def refused {α : Type} (name : String) (cause : FieldCause) : Checked α :=
  .error [{ name, cause }]

def textField (name : String) : Json → Checked String
  | .text s => .ok s
  | _ => refused name .notText

/-- The items of a list of texts; every item that is none is reported. -/
def textItems (name : String) : Nat → List Json → Checked (List String)
  | _, [] => .ok []
  | i, .text s :: rest => (textItems name (i + 1) rest).map (s :: ·)
  | i, _ :: rest =>
    let here : FieldFault := { name, index := some i, cause := .notText }
    match textItems name (i + 1) rest with
    | .ok _ => .error [here]
    | .error more => .error (here :: more)

def listField (name : String) : Json → Checked (List String)
  | .array items => textItems name 0 items
  | _ => refused name .notList

def objectField (name : String) : Json → Checked Fields
  | .object fields => .ok fields
  | _ => refused name .notObject

def categoryField (name : String) : Json → Checked DivergenceCategory
  | .text s =>
    match DivergenceCategory.ofName? s with
    | some c => .ok c
    | none => refused name .notMember
  | _ => refused name .notMember

def required {α : Type} (given : Fields) (name : String) (read : String → Json → Checked α) :
    Checked α :=
  match given.get? name with
  | some v => read name v
  | none => refused name .absent

/-- A field that may be absent or null, under its first name or else its second. -/
def allowed {α : Type} (given : Fields) (name second : String)
    (read : String → Json → Checked α) : Checked (Option α) :=
  match given.get? name, given.get? second with
  | some .null, _ => .ok none
  | some v, _ => (read name v).map some
  | none, some .null => .ok none
  | none, some v => (read second v).map some
  | none, none => .ok none

def faultsOf {α : Type} : Checked α → List FieldFault
  | .ok _ => []
  | .error faults => faults

/-- The record that named fields describe; other fields are ignored. -/
def ofFields (given : Fields) : Checked DivergenceRecord :=
  let category := required given "category" categoryField
  let file := required given "file" textField
  let version := required given "version" textField
  let error := allowed given "error" "error" textField
  let functionName := allowed given "functionName" "function_name" textField
  let encodedCall := allowed given "encodedCall" "encoded_call" textField
  let callParameters := allowed given "callParameters" "call_parameters" listField
  let runResult := allowed given "runResult" "run_result" objectField
  let kinds := allowed given "kinds" "kinds" listField
  match category, file, version, error, functionName, encodedCall, callParameters, runResult,
    kinds with
  | .ok category, .ok file, .ok version, .ok error, .ok functionName, .ok encodedCall,
      .ok callParameters, .ok runResult, .ok kinds =>
    .ok { category, file, version, error, functionName, encodedCall, callParameters, runResult,
          kinds }
  | _, _, _, _, _, _, _, _, _ =>
    .error (faultsOf category ++ faultsOf file ++ faultsOf version ++ faultsOf error ++
      faultsOf functionName ++ faultsOf encodedCall ++ faultsOf callParameters ++
      faultsOf runResult ++ faultsOf kinds)

end DivergenceRecord

end BackendFuzz
