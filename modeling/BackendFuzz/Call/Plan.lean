import BackendFuzz.Call.Selectors

/-!
# Planned calls

One call, the same for every backend of an iteration. A backend's call data is
its own selector for the signature, without a leading `0x`, and the arguments.
-/

namespace BackendFuzz

structure CallPlan where
  functionName : String
  types : List String
  values : List Int
  encoded : String
  deriving DecidableEq, Repr

namespace CallPlan

def signature (p : CallPlan) : String :=
  p.functionName ++ "(" ++ ",".intercalate p.types ++ ")"

def withoutMark (cs : List Char) : List Char :=
  match cs with
  | '0' :: 'x' :: rest => rest
  | _ => cs

def callData (p : CallPlan) (selectors : Selectors) : Except Misuse (Option String) :=
  match selectors.lookup p.signature with
  | none | some .null => .ok none
  | some (.text s) => .ok (some ("0x" ++ String.ofList (withoutMark s.toList) ++ p.encoded))
  | some v => .error (.feature v.kind "removeprefix")

def valueTexts (p : CallPlan) : List String := p.values.map toString

end CallPlan

end BackendFuzz
