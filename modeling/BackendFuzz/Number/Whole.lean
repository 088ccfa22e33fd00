import BackendFuzz.Text.Blank
import BackendFuzz.Text.Digit

/-!
# Whole numbers in text

A whole number is read from decimal digits of any script, with a sign, white
space around it (the four information separators excepted) and single
underscores between digits. Texts of more than 4300 digits are refused.
-/

namespace BackendFuzz

/-- The longest digit string that is read as a number. -/
def maxDigits : Nat := 4300

def ofDigits (digits : List Nat) : Nat := digits.foldl (fun n d => 10 * n + d) 0

/-- The values of digits that single underscores may separate; a digit stands at both ends. -/
def separatedDigits? : List Char → Option (List Nat)
  | [] => none
  | [c] => (Text.digitValue? c).map ([·])
  | c :: '_' :: rest => do
    let d ← Text.digitValue? c
    let ds ← separatedDigits? rest
    return d :: ds
  | c :: rest => do
    let d ← Text.digitValue? c
    let ds ← separatedDigits? rest
    return d :: ds

def unsignedWhole? (cs : List Char) : Option Nat := do
  let ds ← separatedDigits? cs
  if ds.length ≤ maxDigits then some (ofDigits ds) else none

def isMargin (c : Char) : Bool := Text.isBlank c && !(0x1c ≤ c.toNat && c.toNat ≤ 0x1f)

def readWhole? (text : String) : Option Int :=
  match ((text.toList.dropWhile isMargin).reverse.dropWhile isMargin).reverse with
  | '-' :: cs => (unsignedWhole? cs).map fun n => -(n : Int)
  | '+' :: cs => (unsignedWhole? cs).map fun n => (n : Int)
  | cs => (unsignedWhole? cs).map fun n => (n : Int)

end BackendFuzz
