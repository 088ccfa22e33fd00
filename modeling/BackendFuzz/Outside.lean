import BackendFuzz.Fault
import BackendFuzz.Moment

/-!
# The outside

Everything a session asks for, as requests, and what answers them: other
programs, the compiler manager, the sources of chance, and the clock. An answer
may depend on all that was asked before.
-/

namespace BackendFuzz

inductive Request where
  | engine (command : List String) (timeout : Binary64) (input : String)
  | compiler (command : List String) (timeout : Binary64) (input : String)
  | eofCompiler (command : List String) (timeout : Binary64) (source compilerPath : String)
  | eofVersion (command : List String) (timeout : Binary64)
  | machine (command : List Json) (timeout : Binary64)
  | installedVersions
  | install (version : String)
  | parseSeed (input version allowedPaths : String)
  /-- Bits for a call value. -/
  | callBits (count : Nat)
  /-- Bits of the session's own generator. -/
  | sessionBits (count : Nat)
  /-- An index below a size, of the session's own generator. -/
  | choice (size : Nat)
  /-- The start of the session's own generator. -/
  | seedGenerator (seed : Option Int)
  /-- A compile, of a substitute for all compilers. -/
  | substituteCompile (version : String) (variant : Int)
  /-- A run, of a substitute for the machine. -/
  | substituteRun (bytecode : Json) (callData : String) (revision : Int)

structure Ended where
  code : Int := 0
  output : String := ""
  errors : String := ""
  deriving DecidableEq, Repr

inductive ProgramReply where
  | ended (e : Ended)
  | timedOut
  /-- It could not be found. -/
  | missing
  /-- It may not be started. -/
  | denied
  /-- The user interrupted the session meanwhile. -/
  | interrupted
  deriving DecidableEq, Repr

/-- The machine also writes two dump files, or one of them, or none. -/
structure MachineReply where
  reply : ProgramReply
  storage : Option ByteArray := none
  logs : Option ByteArray := none

inductive SeedReply where
  | output (v : Json)
  | rejected (reason : String)

/-- What answers requests; the requests made before come first. -/
structure Outside where
  engine : List Request → String → ProgramReply
  compiler : List Request → String → ProgramReply
  eofCompiler : List Request → ProgramReply
  eofVersion : List Request → ProgramReply
  machine : List Request → Json → MachineReply
  installed : List Request → List String
  /-- Why an installation failed, if it did. -/
  install : List Request → String → Option String
  parseSeed : List Request → String → SeedReply
  callBits : List Request → Nat → Int
  sessionBits : List Request → Nat → Int
  choice : List Request → Nat → Int
  /-- Whether a program can be found by its name. -/
  onPath : String → Bool
  /-- The reading of the clock by the number of readings before. -/
  clock : Nat → Binary64
  now : Moment
  processId : Nat
  /-- What is told of the way to a fault. -/
  traceback : Fault → String := fun fault => s!"{fault.kind}: {fault.message}"

/-- An outside without other programs, in which the clock stands still and nothing is by chance. -/
def Outside.alone (now : Moment) : Outside where
  engine _ _ := .missing
  compiler _ _ := .missing
  eofCompiler _ := .missing
  eofVersion _ := .missing
  machine _ _ := { reply := .missing }
  installed _ := []
  install _ version := some s!"solc {version} cannot be installed from here"
  parseSeed _ _ := .rejected "no compiler"
  callBits _ _ := 0
  sessionBits _ _ := 0
  choice _ _ := 0
  onPath _ := false
  clock _ := Binary64.zero
  now
  processId := 0

end BackendFuzz
