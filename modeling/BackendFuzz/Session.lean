import BackendFuzz.Fault
import BackendFuzz.Log.Event
import BackendFuzz.Outside

/-!
# Sessions

A session acts on its bench: files, the requests made, the events logged, the
lines printed, and what it remembers of compilers. A fault ends it and leaves
the bench as it was at that point. Printing and logging never fail, what is written
is written whole, and the user interrupts only while a program is waited for.
-/

namespace BackendFuzz

/-- What a session learns once: versions known to be installed, and versions of compilers asked. -/
structure Memory where
  installed : List String := []
  versions : List (String × String) := []
  deriving DecidableEq, Repr

structure Bench where
  files : FileStore := .empty
  asked : List Request := []
  events : List LogEvent := []
  printed : List String := []
  readings : Nat := 0
  memory : Memory := {}

abbrev Session (α : Type) := ReaderT Outside (ExceptT Fault (StateM Bench)) α

namespace Session

def run {α : Type} (session : Session α) (outside : Outside) (bench : Bench) :
    Except Fault α × Bench :=
  (ReaderT.run session outside).run.run bench

def ofExcept {α : Type} : Except Fault α → Session α
  | .ok a => pure a
  | .error fault => throw fault

/-- A look into a value that may have the wrong shape. -/
def looking {α : Type} (e : Except Misuse α) : Session α := ofExcept (e.mapError .misuse)

/-- A session whose fault is its result. -/
def attempt {α : Type} (body : Session α) : Session (Except Fault α) :=
  tryCatch (Except.ok <$> body) fun fault => pure (.error fault)

/-- A session, and after it another one whether or not the first faulted. -/
def ensuring {α : Type} (body : Session α) (last : Session Unit) : Session α := do
  let result ← attempt body
  last
  ofExcept result

/-! ## Acting on the bench -/

def note (r : Request) : Session (List Request) := do
  let before := (← get).asked
  modify fun b => { b with asked := b.asked ++ [r] }
  return before

def log (event : LogEvent) : Session Unit :=
  modify fun b => { b with events := b.events ++ [event] }

def debug (component : Component) (message : String) : Session Unit :=
  log { level := .debug, component, message }

def info (component : Component) (message : String) : Session Unit :=
  log { level := .info, component, message }

def printLine (line : String) : Session Unit :=
  modify fun b => { b with printed := b.printed ++ [line] }

def readClock : Session Binary64 := do
  let n := (← get).readings
  modify fun b => { b with readings := n + 1 }
  return (← read).clock n

/-- Whether a file is at a path; no file is at one that is flawed. -/
def isFile (path : Path) : Session Bool := do
  if path.flaw?.isSome then return false
  match (← get).files.isFile path with
  | .ok b => return b
  | .error fault => throw (.file fault)

def checkPath (path : Path) : Session Unit :=
  match path.flaw? with
  | some flaw => throw (.path flaw)
  | none => pure ()

def changeFiles (path : Path) (change : FileStore → Path → Except FileFault FileStore) :
    Session Unit := do
  checkPath path
  match change (← get).files path with
  | .ok files => modify fun b => { b with files }
  | .error fault => throw (.file fault)

/-- Makes the directories of a path; those made before one is refused stay. -/
def furnish (path : Path) : Session Unit := do
  checkPath path
  let (files, refused) := (← get).files.furnish path
  modify fun b => { b with files }
  match refused with
  | some fault => throw (.file fault)
  | none => pure ()

def writeFile (path : Path) (content : ByteArray) : Session Unit :=
  changeFiles path fun files path => files.writeFile path content

def encoded (text : String) : Session ByteArray := ofExcept ((Text.encode text).mapError .unencodable)

def readTextFile (path : Path) : Session String := do
  checkPath path
  match (← get).files.read path with
  | .error fault => throw (.file fault)
  | .ok content =>
    match Text.decode content with
    | .ok s => return String.ofList (Text.unifyLines s.toList)
    | .error fault => throw (.encoding fault)

/-! ## Asking the outside -/

def settled (program : String) (onTimeout : Session Ended) : ProgramReply → Session Ended
  | .ended e => pure e
  | .timedOut => onTimeout
  | .missing => throw (.file ⟨.absent, program⟩)
  | .denied => throw (.file ⟨.denied, program⟩)
  | .interrupted => throw .interrupted

def callBits (count : Nat) : Session Int := do
  let before ← note (.callBits count)
  return (← read).callBits before count

def sessionBits (count : Nat) : Session Int := do
  let before ← note (.sessionBits count)
  return (← read).sessionBits before count

def choice (size : Nat) : Session Int := do
  let before ← note (.choice size)
  return (← read).choice before size

/-- The item at an index, which counts from the end if it is negative. -/
def itemAt {α : Type} (items : List α) (index : Int) : Session α :=
  let place := if index < 0 then index + items.length else index
  match if place < 0 then none else items[place.toNat]? with
  | some a => pure a
  | none => throw (.misuse .outOfRange)

def pick {α : Type} (items : List α) : Session α := do
  itemAt items (← choice items.length)

end Session

end BackendFuzz
