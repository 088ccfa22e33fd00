import BackendFuzz.Json.Equality
import BackendFuzz.Json.Misuse
import BackendFuzz.Json.Printer

/-!
# Selector tables

A compiler reports which selector belongs to which signature, as an object or
as a list of pairs.
-/

namespace BackendFuzz

structure Selectors where
  entries : List (Json × Json) := []

namespace Selectors

def ofFields (fields : Fields) : Selectors := ⟨fields.map fun f => (.text f.1, f.2)⟩

def lookup (s : Selectors) (signature : String) : Option Json :=
  (s.entries.find? fun e => e.1.isText signature).map (·.2)

/-- Sets an entry: in its place if an equal key is there, else at the end. -/
def putEntry (key value : Json) : List (Json × Json) → List (Json × Json)
  | [] => [(key, value)]
  | (k, v) :: rest =>
    if k.same key then (k, value) :: rest else (k, v) :: putEntry key value rest

def pairOf (index : Nat) (item : Json) : Except Misuse (Json × Json) :=
  match item.items with
  | .error _ => .error (.pair index)
  | .ok [key, value] => .ok (key, value)
  | .ok other => .error (.pairSize index other.length)

/-- Only values without parts can be keys. -/
def checkKey (key : Json) : Except Misuse Unit :=
  match key with
  | .array _ | .object _ => .error (.key key.kind)
  | _ => .ok ()

def ofPairs : Nat → List (Json × Json) → List Json → Except Misuse (List (Json × Json))
  | _, entries, [] => .ok entries
  | index, entries, item :: rest => do
    let (key, value) ← pairOf index item
    checkKey key
    ofPairs (index + 1) (putEntry key value entries) rest

def ofJson (v : Json) : Except Misuse Selectors :=
  match v with
  | .object fields => .ok (ofFields fields)
  | _ => do return ⟨← ofPairs 0 [] (← v.items)⟩

def keyName : Json → String
  | .text s => s
  | v => v.print

def toJson (s : Selectors) : Json := .object (s.entries.map fun e => (keyName e.1, e.2))

end Selectors

end BackendFuzz
