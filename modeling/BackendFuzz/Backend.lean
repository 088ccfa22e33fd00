/-!
# Backends

A backend is a compiler version, or the build for the EVM object format. Each
has a revision of the machine that runs its output.
-/

namespace BackendFuzz

structure Backend where
  version : String
  deriving DecidableEq, Repr

namespace Backend

/-- The version that stands for the object-format build. -/
def eofVersion : String := "eof"

def isEof (b : Backend) : Bool := b.version == eofVersion

def revision (b : Backend) : Nat := if b.isEof then 14 else 13

end Backend

def resolveVersions (versions : Option (List String)) (withEof : Bool) (default : String) :
    List String :=
  let chosen := match versions with
    | some (v :: vs) => v :: vs
    | _ => [default]
  if withEof && !chosen.contains Backend.eofVersion then chosen ++ [Backend.eofVersion] else chosen

end BackendFuzz
