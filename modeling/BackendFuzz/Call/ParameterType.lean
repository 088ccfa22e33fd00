import BackendFuzz.Fault
import BackendFuzz.Text.Blank
import BackendFuzz.Text.Digit

/-!
# Parameter types

The integer types are `int` and `uint` with a width in bits, a multiple of eight
up to 256, and 256 when it is left out. Calls are planned for them only.
-/

namespace BackendFuzz

structure IntegerType where
  signed : Bool
  bits : Nat
  deriving DecidableEq, Repr

def IntegerType.canonical (t : IntegerType) : String :=
  (if t.signed then "int" else "uint") ++ toString t.bits

inductive TypeReading where
  | type (t : IntegerType)
  | other
  /-- The width has more digits than are read as a number. -/
  | tooLong (digits : Nat)
  deriving DecidableEq, Repr

def readWidth (signed : Bool) (cs : List Char) : TypeReading :=
  match cs.mapM Text.digitValue? with
  | none => .other
  | some ds =>
    if maxDigits < ds.length then .tooLong ds.length
    else
      let bits := if ds.isEmpty then 256 else ofDigits ds
      if bits % 8 = 0 ∧ 8 ≤ bits ∧ bits ≤ 256 then .type ⟨signed, bits⟩ else .other

def readType (cs : List Char) : TypeReading :=
  match cs with
  | 'i' :: 'n' :: 't' :: width => readWidth true width
  | 'u' :: 'i' :: 'n' :: 't' :: width => readWidth false width
  | _ => .other

/-- The first of two values unless it counts as false. -/
def Json.orElse (first : Json) (second : Except Misuse Json) : Except Misuse Json :=
  if first.truthy then .ok first else second

/-- The type text of a parameter: its type description, else the name of its type. -/
def typeTextOf (parameter : Json) : Except Misuse Json := do
  let described ← (← parameter.fieldOr "typeDescriptions" (.object [])).field "typeString"
  described.orElse do
    let named ← (← parameter.fieldOr "typeName" (.object [])).field "name"
    named.orElse (.ok (.text ""))

def resolveType (parameter : Json) : Except Fault IntegerType := do
  match ← (typeTextOf parameter).mapError Fault.misuse with
  | .text s =>
    match readType (Text.trim s.toList) with
    | .type t => return t
    | .tooLong digits => throw (.misuse (.digits digits))
    | .other => throw (.parameter ⟨s, ← (parameter.fieldOr "name" (.text "")).mapError Fault.misuse⟩)
  | v => throw (.misuse (.feature v.kind "strip"))

end BackendFuzz
