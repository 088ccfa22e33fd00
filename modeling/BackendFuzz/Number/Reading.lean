import BackendFuzz.Number.Binary64
import BackendFuzz.Number.Whole

/-!
# Numbers with a fraction in text

A sign, digits with at most one point, and an exponent, or one of the names of
infinity and of no number, in any case. Single underscores may stand inside a
text without white space around it.
-/

namespace BackendFuzz

def isPlainDigit (c : Char) : Bool := '0' ≤ c && c ≤ '9'

def plainDigits (cs : List Char) : List Nat := cs.map fun c => c.toNat - '0'.toNat

def readSign (cs : List Char) : Bool × List Char :=
  match cs with
  | '-' :: rest => (true, rest)
  | '+' :: rest => (false, rest)
  | _ => (false, cs)

def readExponent? (cs : List Char) : Option Int :=
  match cs with
  | [] => some 0
  | c :: rest =>
    if c = 'e' ∨ c = 'E' then
      let (minus, digits) := readSign rest
      if digits.isEmpty || !digits.all isPlainDigit then none
      else
        let n : Int := ofDigits (plainDigits digits)
        some (if minus then -n else n)
    else none

def readMagnitude? (minus : Bool) (cs : List Char) : Option Binary64 := do
  let whole := cs.takeWhile isPlainDigit
  let rest := cs.dropWhile isPlainDigit
  let (places, rest) := match rest with
    | '.' :: rest => (rest.takeWhile isPlainDigit, rest.dropWhile isPlainDigit)
    | _ => ([], rest)
  if whole.isEmpty && places.isEmpty then none
  let exponent ← readExponent? rest
  return Binary64.ofDecimal minus (ofDigits (plainDigits (whole ++ places)))
    (exponent - places.length)

def readPlainReal? (cs : List Char) : Option Binary64 :=
  let (minus, body) := readSign cs
  let name := String.ofList (body.map Char.toLower)
  if name = "inf" ∨ name = "infinity" then some (.infinite minus)
  else if name = "nan" then some .nan
  else readMagnitude? minus body

def doubledUnderscore : List Char → Bool
  | '_' :: '_' :: _ => true
  | _ :: rest => doubledUnderscore rest
  | [] => false

def withoutUnderscores? (cs : List Char) : Option (List Char) :=
  if cs.head? = some '_' ∨ cs.getLast? = some '_' ∨ doubledUnderscore cs then none
  else some (cs.filter (· ≠ '_'))

def readReal? (text : String) : Option Binary64 :=
  let cs := text.toList
  let bare := ((cs.dropWhile isMargin).reverse.dropWhile isMargin).reverse
  match readPlainReal? bare with
  | some x => some x
  | none => do readPlainReal? (← withoutUnderscores? cs)

end BackendFuzz
