import BackendFuzz.Json.Literal
import BackendFuzz.Json.Printer
import BackendFuzz.Log.Event
import BackendFuzz.Moment

/-!
# Log lines

A log record as one line of JSON, or as a coloured line for people. A JSON line
holds no line feed whatever the message holds, since it is printable ASCII.
-/

namespace BackendFuzz

structure LogOrigin where
  file : String
  function : Option String
  line : Int

structure LogRecord where
  time : Moment
  level : Int
  logger : String
  message : String
  origin : Option LogOrigin := none
  failure : Option LogFailure := none
  /-- The text of the traceback, unless it is just the line of the failure. -/
  traceback : Option String := none
  iteration : Option Json := none
  backend : Option Json := none
  durationMs : Option Json := none

/-- The last part of a file's path, without its ending; dots in front are no ending. -/
def LogOrigin.moduleName (o : LogOrigin) : String :=
  let name := (o.file.toList.reverse.takeWhile (· ≠ '/')).reverse
  let dots := name.takeWhile (· = '.')
  let back := (name.dropWhile (· = '.')).reverse
  match back.dropWhile (· ≠ '.') with
  | _ :: before => String.ofList (dots ++ before.reverse)
  | [] => String.ofList name

namespace LogRecord

def ofEvent (time : Moment) (e : LogEvent) : LogRecord where
  time
  level := e.level.number
  logger := e.component.name
  message := e.message
  failure := e.failure
  traceback := e.traceback
  iteration := e.iteration.map Json.int
  backend := e.backend.map Json.text
  durationMs := e.durationMs.map Json.int

def levelName (r : LogRecord) : String := LogLevel.nameOf r.level

def originFields (r : LogRecord) : Fields :=
  match r.origin with
  | some o =>
    [("module", .text o.moduleName), ("function", (o.function.map Json.text).getD .null),
      ("line", .int o.line)]
  | none => []

/-- What is told of the way to a failure; of one that was never raised, just its line. -/
def trace (r : LogRecord) (f : LogFailure) : String := r.traceback.getD f.line

def failureFields (r : LogRecord) : Fields :=
  match r.failure with
  | some f =>
    [("exception", .object [("type", .text f.kind), ("message", .text f.message),
      ("traceback", .text (r.trace f))])]
  | none => []

def optional (name : String) (v : Option Json) : Fields := (v.map fun v => (name, v)).toList

def fields (r : LogRecord) : Fields :=
  [("timestamp", .text r.time.iso), ("level", .text r.levelName), ("logger", .text r.logger),
    ("message", .text r.message)] ++ r.originFields ++ r.failureFields ++
    optional "iteration" r.iteration ++ optional "backend" r.backend ++
    optional "duration_ms" r.durationMs

def jsonLine (r : LogRecord) : String := (Json.object r.fields).print

def colour (r : LogRecord) : String :=
  if r.level = 10 then "\x1b[36m"
  else if r.level = 20 then "\x1b[32m"
  else if r.level = 30 then "\x1b[33m"
  else if r.level = 40 then "\x1b[31m"
  else if r.level = 50 then "\x1b[35m"
  else ""

def toEight (s : String) : String := String.ofList (List.replicate (8 - s.length) ' ') ++ s

/-- The record as a line for people: time and level in colour, backend, message and failure. -/
def colouredLine (r : LogRecord) : String :=
  let front := s!"{r.colour}{r.time.clock} [{toEight r.levelName}]\x1b[0m"
  let backend := match r.backend with
    | some b => if b.truthy then s!"[{b.display}] " else ""
    | none => ""
  let failure := match r.failure with
    | some f => "\n" ++ r.trace f
    | none => ""
  s!"{front} {r.logger}: {backend}{r.message}{failure}"

end LogRecord

end BackendFuzz
