import BackendFuzz.Backend
import BackendFuzz.Call.Selectors

/-!
# Compile outcomes

What one backend made of one variant, whichever compiler it is.
-/

namespace BackendFuzz

structure CompileOutcome where
  backend : Backend
  success : Bool
  /-- Null if there is none. -/
  bytecode : Json := .null
  selectors : Selectors := {}
  error : String := ""

def CompileOutcome.executable (o : CompileOutcome) : Bool := o.success && o.bytecode.truthy

def CompileOutcome.failed (backend : Backend) (error : String) : CompileOutcome :=
  { backend, success := false, error }

end BackendFuzz
