import BackendFuzz.Json.Basic
import BackendFuzz.Number.Decimal
import BackendFuzz.Text.Quoted

/-!
# JSON values in messages

How a value reads inside a message: a text as it is, everything else as a
literal, in which texts are quoted and the three constants have names of their
own.
-/

namespace BackendFuzz

namespace Json

mutual

def literal : Json → String
  | null => "None"
  | bool b => if b then "True" else "False"
  | int n => toString n
  | real x => x.text
  | text s => Text.quote s
  | array items => "[" ++ literalItems items ++ "]"
  | object fields => "\x7b" ++ literalFields fields ++ "\x7d"

def literalItems : List Json → String
  | [] => ""
  | [x] => literal x
  | x :: xs => literal x ++ ", " ++ literalItems xs

def literalFields : List (String × Json) → String
  | [] => ""
  | [(n, v)] => Text.quote n ++ ": " ++ literal v
  | (n, v) :: rest => Text.quote n ++ ": " ++ literal v ++ ", " ++ literalFields rest

end

def display : Json → String
  | text s => s
  | v => v.literal

end Json

end BackendFuzz
