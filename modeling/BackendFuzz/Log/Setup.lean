import BackendFuzz.Fault
import BackendFuzz.Log.Event

/-!
# Logging setup

The threshold and the handlers of the root logger. A level is named in any case;
a name that is none means the information level, except for two names that
stand for something else.
-/

namespace BackendFuzz

inductive LogStyle where
  | coloured
  | json
  deriving DecidableEq, Repr

structure LogHandler where
  style : LogStyle
  level : Int
  deriving DecidableEq, Repr

structure LogSetup where
  root : Int := 30
  handlers : List LogHandler := []
  /-- The threshold for the compiler manager, which reports every look-up. -/
  compilerManager : Int := 0
  deriving DecidableEq, Repr

def capitals (c : Char) : List Char :=
  if c = 'ß' then ['S', 'S']
  else if c = 'ı' then ['I']
  else if c = 'ſ' then ['S']
  else if c = 'ﬀ' then ['F', 'F']
  else if c = 'ﬁ' then ['F', 'I']
  else if c = 'ﬂ' then ['F', 'L']
  else if c = 'ﬃ' then ['F', 'F', 'I']
  else if c = 'ﬄ' then ['F', 'F', 'L']
  else if c = 'ﬅ' ∨ c = 'ﬆ' then ['S', 'T']
  else [c.toUpper]

def capitalized (s : String) : String := String.ofList (s.toList.flatMap capitals)

def levelNumber (name : String) : Except Fault Int :=
  let name := capitalized name
  if name = "CRITICAL" ∨ name = "FATAL" then .ok 50
  else if name = "ERROR" then .ok 40
  else if name = "WARNING" ∨ name = "WARN" then .ok 30
  else if name = "DEBUG" then .ok 10
  else if name = "NOTSET" then .ok 0
  else if name = "BASIC_FORMAT" then .error (.value "Unknown level: '%(levelname)s:%(name)s:%(message)s'")
  else if name = "_STYLES" then .error .levelKind
  else .ok 20

/-- One handler in place of those before, at the named level. -/
def LogSetup.configure (_setup : LogSetup) (level : String) (coloured : Bool) :
    Except Fault LogSetup := do
  let n ← levelNumber level
  return ⟨n, [⟨if coloured then .coloured else .json, n⟩], 30⟩

end BackendFuzz
