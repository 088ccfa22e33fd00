import BackendFuzz.Json.Basic

/-!
# Equality of JSON values

Numbers and truth values agree by value (`1`, `1.0` and `true`), arrays item by
item, and objects whatever the order of their fields. Every value agrees with
itself, also the one that is no number.
-/

namespace BackendFuzz

/-- What a number or truth value counts as. -/
inductive Amount where
  | whole (n : Int)
  | binary (x : Binary64)

def Amount.same : Amount → Amount → Bool
  | whole a, whole b => a == b
  | whole a, binary x => x.isWhole a
  | binary x, whole a => x.isWhole a
  | binary x, binary y => x.same y || (x.isNaN && y.isNaN)

namespace Json

def amount? : Json → Option Amount
  | bool b => some (.whole (if b then 1 else 0))
  | int n => some (.whole n)
  | real x => some (.binary x)
  | _ => none

mutual

def same : Json → Json → Bool
  | null, null => true
  | text s, text t => s == t
  | array xs, array ys => sameItems xs ys
  | object fs, object gs => fs.length == gs.length && sameFields fs gs
  | a, b =>
    match a.amount?, b.amount? with
    | some x, some y => x.same y
    | _, _ => false

def sameItems : List Json → List Json → Bool
  | [], [] => true
  | x :: xs, y :: ys => same x y && sameItems xs ys
  | _, _ => false

/-- Whether each field has a partner of the same name and an equal value. -/
def sameFields : List (String × Json) → List (String × Json) → Bool
  | [], _ => true
  | (n, v) :: fs, gs =>
    (match gs.lookup n with
      | some w => same v w
      | none => false) && sameFields fs gs

end

end Json

end BackendFuzz
