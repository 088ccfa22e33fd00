import BackendFuzz.Number.Binary64

/-!
# Decimal text of binary numbers

The shortest decimal that reads back as the same value, and the decimal with a
fixed number of places, both from exact whole-number arithmetic.
-/

namespace BackendFuzz

-- The same instance whatever a module that imports this one adds.
attribute [local instance(high)] instPowNat

/-- `digits * 10 ^ power`. -/
structure Decimal where
  digits : Nat
  power : Int
  deriving DecidableEq, Repr

namespace Decimal

def stripZeros : Nat → Decimal → Decimal
  | 0, d => d
  | fuel + 1, d =>
    if d.digits ≠ 0 ∧ d.digits % 10 = 0 then stripZeros fuel ⟨d.digits / 10, d.power + 1⟩ else d

/-- `num / den / 10 ^ k` as a fraction. -/
def scaleDown (num den : Nat) (k : Int) : Nat × Nat :=
  if k < 0 then (num * 10 ^ (-k).toNat, den) else (num, den * 10 ^ k.toNat)

/-- The real numbers that round to `mantissa * 2 ^ exponent`: four times the ends, over four. -/
structure Cell where
  low : Nat
  high : Nat
  den : Nat
  closed : Bool

/-- Half a unit on each side, a quarter below a power of two. -/
def cell (mantissa : Nat) (exponent : Int) : Cell :=
  let step := if mantissa = 2 ^ (52 : Nat) ∧ -1074 < exponent then 1 else 2
  let (low, den) := Binary64.magnitude (4 * mantissa - step) exponent
  let (high, _) := Binary64.magnitude (4 * mantissa + 2) exponent
  ⟨low, high, 4 * den, mantissa % 2 == 0⟩

def Cell.holds (c : Cell) (n : Nat) (k : Int) : Bool :=
  let (low, lowDen) := scaleDown c.low c.den k
  let (high, highDen) := scaleDown c.high c.den k
  if c.closed then low ≤ n * lowDen && n * highDen ≤ high
  else low < n * lowDen && n * highDen < high

/-- The hit among the two neighbours of the value on the grid `10 ^ k`, the nearer one of two. -/
def onGrid? (mantissa : Nat) (exponent : Int) (k : Int) : Option Decimal :=
  let (num, den) := Binary64.magnitude mantissa exponent
  let (n, d) := scaleDown num den k
  let below := n / d
  let c := cell mantissa exponent
  match c.holds below k, c.holds (below + 1) k with
  | true, true => some ⟨Binary64.divNearest n d, k⟩
  | true, false => some ⟨below, k⟩
  | false, true => some ⟨below + 1, k⟩
  | false, false => none

def leadingPower (mantissa : Nat) (exponent : Int) : Int :=
  let (num, den) := Binary64.magnitude mantissa exponent
  let guess : Int := (((num.log2 : Int) - den.log2) * 30103).fdiv 100000 - 1
  let climb (k : Int) : Int :=
    let (n, d) := scaleDown num den (k + 1)
    if d ≤ n then k + 1 else k
  climb (climb (climb guess))

/-- The first grid with a hit, from the coarsest: at most `fuel` grids from `10 ^ k` down. -/
def firstHit (mantissa : Nat) (exponent : Int) : Nat → Int → Decimal
  | 0, k => ⟨0, k⟩
  | fuel + 1, k =>
    match onGrid? mantissa exponent k with
    | some d => d
    | none => firstHit mantissa exponent fuel (k - 1)

/-- The shortest decimal that reads back as `mantissa * 2 ^ exponent`. -/
def shortest (mantissa : Nat) (exponent : Int) : Decimal :=
  if mantissa = 0 then ⟨0, 0⟩
  else stripZeros 400 (firstHit mantissa exponent 18 (leadingPower mantissa exponent))

/-- The decimal with `places + 1` digits nearest to `mantissa * 2 ^ exponent`, a tie to the even digit. -/
def nearest (places mantissa : Nat) (exponent : Int) : Decimal :=
  if mantissa = 0 then ⟨0, -places⟩
  else
    let k := leadingPower mantissa exponent - places
    let (num, den) := Binary64.magnitude mantissa exponent
    let (n, d) := scaleDown num den k
    let digits := Binary64.divNearest n d
    if digits = 10 ^ (places + 1) then ⟨10 ^ places, k + 1⟩ else ⟨digits, k⟩

/-! ## Layout -/

def zerosText (n : Nat) : String := String.ofList (List.replicate n '0')

def withPoint (digits : Nat) (places : Nat) : String :=
  let cs := (toString digits).toList
  let cs := List.replicate (places + 1 - cs.length) '0' ++ cs
  let whole := cs.take (cs.length - places)
  let rest := cs.drop (cs.length - places)
  if places = 0 then String.ofList whole else String.ofList (whole ++ '.' :: rest)

structure Layout where
  leastPositional : Int
  mostPositional : Int
  exponentDigits : Nat

/-- A point for leading powers from -4 to 15, else an exponent of at least two digits. -/
def Layout.real : Layout := ⟨-4, 15, 2⟩

def exponentText (l : Layout) (e : Int) : String :=
  let digits := toString e.natAbs
  (if e < 0 then "-" else "+") ++ zerosText (l.exponentDigits - digits.length) ++ digits

def text (l : Layout) (d : Decimal) : String :=
  let cs := (toString d.digits).toList
  let leading : Int := cs.length - 1 + d.power
  if l.leastPositional ≤ leading ∧ leading ≤ l.mostPositional then
    if d.power < 0 then withPoint d.digits (-d.power).toNat
    else withPoint (d.digits * 10 ^ (d.power.toNat + 1)) 1
  else
    let significand := match cs with
      | [] => "0"
      | [c] => String.singleton c
      | c :: rest => String.ofList (c :: '.' :: rest)
    significand ++ "e" ++ exponentText l leading

def scientificText (places : Nat) (d : Decimal) : String :=
  withPoint d.digits places ++ "e" ++ exponentText Layout.real (d.power + places)

def dropZeros (s : String) : String :=
  let cs := s.toList
  if cs.contains '.' then
    let back := cs.reverse.dropWhile (· = '0')
    String.ofList (back.dropWhile (· = '.')).reverse
  else s

def generalText (places : Nat) (keepZeros : Bool) (d : Decimal) : String :=
  let trim (s : String) : String := if keepZeros then s else dropZeros s
  let leading := d.power + places
  if -4 ≤ leading ∧ leading ≤ places then trim (withPoint d.digits (-d.power).toNat)
  else trim (withPoint d.digits places) ++ "e" ++ exponentText Layout.real leading

end Decimal

namespace Binary64

def text : Binary64 → String
  | finite negative m e =>
    (if negative then "-" else "") ++ (Decimal.shortest m e).text Decimal.Layout.real
  | infinite negative => if negative then "-inf" else "inf"
  | nan => "nan"

def fixedText (places : Nat) : Binary64 → String
  | finite negative m e =>
    let (num, den) := magnitude m e
    (if negative then "-" else "") ++ Decimal.withPoint (divNearest (num * 10 ^ places) den) places
  | x => x.text

def scientificText (places : Nat) : Binary64 → String
  | finite negative m e =>
    (if negative then "-" else "") ++ (Decimal.nearest places m e).scientificText places
  | x => x.text

def generalText (places : Nat) (keepZeros : Bool) : Binary64 → String
  | finite negative m e =>
    (if negative then "-" else "") ++ (Decimal.nearest places m e).generalText places keepZeros
  | x => x.text

end Binary64

end BackendFuzz
