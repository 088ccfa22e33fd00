import BackendFuzz.Execution.Status
import BackendFuzz.Json.Equality
import BackendFuzz.Json.Misuse

/-!
# Run outcomes

What a run left behind: status, output, storage and emitted events. Two
outcomes diverge in the parts in which they differ, the status not counted.
-/

namespace BackendFuzz

structure LogEntry where
  address : String
  topics : List String := []
  data : String := ""
  deriving DecidableEq, Repr

namespace LogEntry

/-- The event that an entry of a dump describes; absent parts are empty. -/
def ofJson (raw : Json) : Except Misuse LogEntry := do
  let address ← raw.fieldOr "address" (.text "")
  let topics ← (← raw.fieldOr "topics" (.array [])).items
  let data ← raw.fieldOr "data" (.text "")
  return ⟨address.display, topics.map Json.display, data.display⟩

def toJson (e : LogEntry) : Json :=
  .object [("address", .text e.address), ("topics", Json.texts e.topics), ("data", .text e.data)]

end LogEntry

structure RunOutcome where
  status : String
  output : String := ""
  storage : Json := .object []
  logs : List LogEntry := []

inductive Part where
  | output
  | storage
  | logs
  deriving DecidableEq, Repr

def Part.name : Part → String
  | output => "output"
  | storage => "storage"
  | logs => "logs"

namespace RunOutcome

def noOp : RunOutcome := { status := noOpStatus }

def divergencesFrom (o base : RunOutcome) : List Part :=
  (if o.output = base.output then [] else [Part.output]) ++
  (if o.storage.same base.storage then [] else [Part.storage]) ++
  (if o.logs = base.logs then [] else [Part.logs])

def same (a b : RunOutcome) : Bool :=
  a.status == b.status && a.output == b.output && a.storage.same b.storage && a.logs == b.logs

def succeeded (o : RunOutcome) : Bool := o.status == successStatus

def fields (o : RunOutcome) : Fields :=
  [("result", .object [("result", .text o.status), ("output", .text o.output)]),
    ("storage", o.storage), ("logs", .array (o.logs.map LogEntry.toJson))]

def toJson (o : RunOutcome) : Json := .object o.fields

end RunOutcome

end BackendFuzz
