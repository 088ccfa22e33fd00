import BackendFuzz.Json.Literal

/-!
# Given values

An option is given a value, or nothing at all: two dashes alone in place of its
value are dropped.
-/

namespace BackendFuzz

inductive Given (α : Type) where
  | value (a : α)
  | nothing
  deriving DecidableEq, Repr

namespace Given

def map {α β : Type} (f : α → β) : Given α → Given β
  | value a => value (f a)
  | nothing => nothing

/-- What was given as a value of its own: nothing is an empty array. -/
def toJson {α : Type} (encode : α → Json) : Given α → Json
  | value a => encode a
  | nothing => .array []

def expect {α ε : Type} (refusal : String → ε) : Given α → Except ε α
  | value a => .ok a
  | nothing => .error (refusal "list")

end Given

end BackendFuzz
