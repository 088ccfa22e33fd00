import BackendFuzz.Json.Basic
import BackendFuzz.Number.Decimal
import BackendFuzz.Text.Quoted

/-!
# JSON text

One line of printable ASCII: a comma and a colon are each followed by a space,
and every other character is written as the escapes of its UTF-16 units. Values
of any depth and numbers of any length have a text.
-/

namespace BackendFuzz

namespace Json

def unitEscape (n : Nat) : List Char := '\\' :: 'u' :: Text.hexDigits 4 n

/-- The escapes of a character: one unit, or a pair above the first plane. -/
def escapeUnits (c : Char) : List Char :=
  let n := Text.point c
  if n < 0x10000 then unitEscape n
  else
    let m := n - 0x10000
    unitEscape (0xD800 + m / 0x400) ++ unitEscape (0xDC00 + m % 0x400)

def printedChar (c : Char) : List Char :=
  if c = '"' then ['\\', '"']
  else if c = '\\' then ['\\', '\\']
  else if c = '\n' then ['\\', 'n']
  else if c = '\r' then ['\\', 'r']
  else if c = '\t' then ['\\', 't']
  else if c = '\x0c' then ['\\', 'f']
  else if c = '\x08' then ['\\', 'b']
  else if 0x20 ≤ c.toNat ∧ c.toNat < 0x7f then [c]
  else escapeUnits c

def printedText (cs : List Char) : List Char := '"' :: cs.flatMap printedChar ++ ['"']

def printedReal : Binary64 → List Char
  | .nan => "NaN".toList
  | .infinite false => "Infinity".toList
  | .infinite true => "-Infinity".toList
  | x => x.text.toList

mutual

def printed : Json → List Char
  | null => "null".toList
  | bool b => if b then "true".toList else "false".toList
  | int n => (toString n).toList
  | real x => printedReal x
  | text s => printedText s.toList
  | array items => '[' :: printedItems items ++ [']']
  | object fields => '{' :: printedFields fields ++ ['}']

def printedItems : List Json → List Char
  | [] => []
  | [x] => printed x
  | x :: xs => printed x ++ ", ".toList ++ printedItems xs

def printedFields : List (String × Json) → List Char
  | [] => []
  | [(n, v)] => printedText n.toList ++ ": ".toList ++ printed v
  | (n, v) :: rest =>
    printedText n.toList ++ ": ".toList ++ printed v ++ ", ".toList ++ printedFields rest

end

def print (j : Json) : String := String.ofList j.printed

end Json

end BackendFuzz
