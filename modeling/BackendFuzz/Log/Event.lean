/-!
# Log events

What a session reports while it runs: the component that speaks, how urgent it
is, the message, what went wrong, and the context it was spoken in. When and where
in the program it was reported is no part of it.
-/

namespace BackendFuzz

inductive LogLevel where
  | debug
  | info
  | warning
  | error
  | critical
  deriving DecidableEq, Repr

namespace LogLevel

def number : LogLevel → Int
  | debug => 10
  | info => 20
  | warning => 30
  | error => 40
  | critical => 50

/-- The name of a level number; zero has one, and other numbers are named by themselves. -/
def nameOf (n : Int) : String :=
  if n = 0 then "NOTSET"
  else if n = 10 then "DEBUG"
  else if n = 20 then "INFO"
  else if n = 30 then "WARNING"
  else if n = 40 then "ERROR"
  else if n = 50 then "CRITICAL"
  else s!"Level {n}"

def name (l : LogLevel) : String := nameOf l.number

end LogLevel

inductive Component where
  | campaign
  | results
  | rules
  | planner
  | classifier
  | machine
  | dispatcher
  | eofCompiler
  | compiler
  | program
  | environment
  deriving DecidableEq, Repr

def Component.name : Component → String
  | campaign => "campaign"
  | results => "results"
  | rules => "rules"
  | planner => "planner"
  | classifier => "classifier"
  | machine => "machine"
  | dispatcher => "dispatcher"
  | eofCompiler => "eof-compiler"
  | compiler => "compiler"
  | program => "program"
  | environment => "environment"

structure LogFailure where
  kind : String
  message : String
  deriving DecidableEq, Repr

def LogFailure.line (f : LogFailure) : String :=
  if f.message.isEmpty then f.kind else s!"{f.kind}: {f.message}"

structure LogEvent where
  level : LogLevel
  component : Component
  message : String
  failure : Option LogFailure := none
  /-- The text of the traceback, if the failure was raised. -/
  traceback : Option String := none
  iteration : Option Int := none
  backend : Option String := none
  durationMs : Option Int := none
  deriving DecidableEq, Repr

end BackendFuzz
