/-!
# Points in time

A UTC date with the time of day to the microsecond, and its texts.
-/

namespace BackendFuzz

structure Moment where
  year : Nat
  month : Nat
  day : Nat
  hour : Nat
  minute : Nat
  second : Nat
  microsecond : Nat
  deriving DecidableEq, Repr

namespace Moment

def padded (width n : Nat) : String :=
  let digits := toString n
  String.ofList (List.replicate (width - digits.length) '0') ++ digits

def clock (m : Moment) : String :=
  s!"{padded 2 m.hour}:{padded 2 m.minute}:{padded 2 m.second}"

/-- Date, time and zone; the fraction is left out when it is zero. -/
def iso (m : Moment) : String :=
  let date := s!"{padded 4 m.year}-{padded 2 m.month}-{padded 2 m.day}"
  let fraction := if m.microsecond = 0 then "" else "." ++ padded 6 m.microsecond
  date ++ "T" ++ m.clock ++ fraction ++ "+00:00"

/-- Date and time to the microsecond, fit for a file name. -/
def stamp (m : Moment) : String :=
  s!"{m.year}{padded 2 m.month}{padded 2 m.day}T{padded 2 m.hour}{padded 2 m.minute}" ++
    s!"{padded 2 m.second}.{padded 6 m.microsecond}"

end Moment

end BackendFuzz
