import BackendFuzz.Campaign.Build
import BackendFuzz.CommandLine.Configuration
import BackendFuzz.Log.Setup
import BackendFuzz.Settings.Environment

/-!
# The program

From a command line to an exit status. Status 0 means that nothing was to do or
that a campaign ran to its end, 1 that a fault or the user stopped it, and 2 that
the arguments could not be read.
-/

namespace BackendFuzz

structure ProgramEnd where
  status : Nat
  /-- Text on the standard output that no campaign printed. -/
  help : String := ""
  errors : String := ""
  /-- The level and the style that logging was set up with. -/
  logging : Option (String × Bool) := none
  deriving DecidableEq, Repr

namespace Program

def red (text : String) : String := s!"\x1b[91m{text}\x1b[0m"

def yellow (text : String) : String := s!"\x1b[93m{text}\x1b[0m"

def stopped : ArgumentStop → ProgramEnd
  | .help => { status := 0, help := helpText }
  | .version => { status := 0, help := versionText }
  | .refused message => { status := 2, errors := s!"{usageText}{programName}: error: {message}\n" }

def verdict : Fault → Nat × String
  | .nothingToDo cause => (0, yellow s!"{cause.message}. Exiting...")
  | .interrupted => (1, yellow "Interrupted")
  | fault => (1, red s!"Error: {fault.message}")

def foreseen : Fault → Bool
  | .nothingToDo _ | .configuration _ | .parameter _ | .rewrite _ | .process _ => true
  | .interrupted => true
  | _ => false

def report (fault : Fault) : Session Unit := do
  if !foreseen fault then
    Session.log
      { level := .error, component := .program, message := "Unexpected failure"
        failure := some ⟨fault.kind, fault.message⟩
        traceback := some ((← read).traceback fault) }

def campaign (arguments : Arguments) (settings : Settings) (budget : Nat) : Session Unit := do
  let config ← Session.ofExcept (configure arguments settings.defaultSolcVersion)
  let campaign ← Campaign.build config settings
  match ← campaign.run budget with
  | .faulted _ fault => throw fault
  | .finished _ | .unfinished _ => return ()

/-- Runs the program; a campaign without a number of tests makes at most `budget` of them. -/
def run (words : List String) (environment : Settings.Named) (budget : Nat) :
    Session ProgramEnd := do
  match Arguments.ofWords words with
  | .error stop => return stopped stop
  | .ok arguments =>
    if arguments.seeds.isEmpty then return stopped .help
    let settings ← Settings.load [] environment
    let verbosity ← Session.ofExcept (compared arguments.verbose ">=")
    let level := if 1 ≤ verbosity then "DEBUG" else settings.logLevel
    let _ ← Session.ofExcept (({} : LogSetup).configure level settings.logPretty)
    let logging := some (level, settings.logPretty)
    match ← Session.attempt (campaign arguments settings budget) with
    | .ok () => return { status := 0, logging }
    | .error fault =>
      report fault
      let (status, message) := verdict fault
      return { status, errors := message ++ "\n", logging }

end Program

end BackendFuzz
