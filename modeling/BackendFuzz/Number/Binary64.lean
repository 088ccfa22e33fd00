/-!
# Binary floating point

The 64-bit binary format: a sign and `mantissa * 2 ^ exponent`, an infinity, or
no number. Every operation is the exact one followed by one rounding to the
nearest value of the format, a tie going to the even mantissa.
-/

namespace BackendFuzz

-- The same instance whatever a module that imports this one adds.
attribute [local instance(high)] instPowNat

inductive Binary64 where
  | finite (negative : Bool) (mantissa : Nat) (exponent : Int)
  | infinite (negative : Bool)
  | nan
  deriving DecidableEq, Inhabited, Repr

namespace Binary64

def zero : Binary64 := finite false 0 0

/-! ## Rounding -/

/-- The quotient rounded to the nearest number, a tie to the even one. -/
def divNearest (num den : Nat) : Nat :=
  let q := num / den
  let r := 2 * (num % den)
  if r < den || (r == den && q % 2 == 0) then q else q + 1

/-- `num / den / 2 ^ e` as a fraction. -/
def scaleDown (num den : Nat) (e : Int) : Nat × Nat :=
  if e < 0 then (num * 2 ^ (-e).toNat, den) else (num, den * 2 ^ e.toNat)

/-- The least exponent of the format under which the quotient has at most 53 bits. -/
def exponentFor (num den : Nat) : Int :=
  let e := max (-1074) ((num.log2 : Int) - den.log2 - 53)
  let (n, d) := scaleDown num den e
  if n / d < 2 ^ (53 : Nat) then e else e + 1

def ofRatio (negative : Bool) (num den : Nat) : Binary64 :=
  if num = 0 then finite negative 0 0
  else
    let e := exponentFor num den
    let (n, d) := scaleDown num den e
    let m := divNearest n d
    let (m, e) := if m = 2 ^ (53 : Nat) then (2 ^ (52 : Nat), e + 1) else (m, e)
    if m = 0 then finite negative 0 0
    else if 971 < e then infinite negative
    else finite negative m e

def ofInt (n : Int) : Binary64 := ofRatio (n < 0) n.natAbs 1

def ofDecimal (negative : Bool) (coefficient : Nat) (power : Int) : Binary64 :=
  if coefficient = 0 then finite negative 0 0
  else
    let size : Int := coefficient.log2 / 3 + 1
    if 400 < power then infinite negative
    else if power + size < -400 then finite negative 0 0
    else if power < 0 then ofRatio negative coefficient (10 ^ (-power).toNat)
    else ofRatio negative (coefficient * 10 ^ power.toNat) 1

/-! ## The exact value -/

def magnitude (mantissa : Nat) (exponent : Int) : Nat × Nat :=
  if exponent < 0 then (mantissa, 2 ^ (-exponent).toNat) else (mantissa * 2 ^ exponent.toNat, 1)

def ratio? : Binary64 → Option (Int × Nat)
  | finite negative m e =>
    let (n, d) := magnitude m e
    some (if negative then -(n : Int) else n, d)
  | _ => none

def isNaN : Binary64 → Bool
  | nan => true
  | _ => false

/-- Order by value; no number is not comparable. -/
def le : Binary64 → Binary64 → Bool
  | nan, _ => false
  | _, nan => false
  | infinite true, _ => true
  | _, infinite true => false
  | _, infinite false => true
  | infinite false, _ => false
  | x, y =>
    match x.ratio?, y.ratio? with
    | some (a, b), some (c, d) => decide (a * d ≤ c * b)
    | _, _ => false

/-- Equality by value: the zeros agree, and no number differs from itself. -/
def same (x y : Binary64) : Bool := x.le y && y.le x

def isWhole (x : Binary64) (n : Int) : Bool :=
  match x.ratio? with
  | some (a, b) => a == n * b
  | none => false

/-! ## Arithmetic -/

def neg : Binary64 → Binary64
  | finite s m e => finite (!s) m e
  | infinite s => infinite (!s)
  | nan => nan

def negative : Binary64 → Bool
  | finite s _ _ => s
  | infinite s => s
  | nan => false

def isZero : Binary64 → Bool
  | finite _ 0 _ => true
  | _ => false

/-- The value nearest to a fraction with a sign; an exact zero is positive. -/
def ofSigned (num : Int) (den : Nat) : Binary64 := ofRatio (num < 0) num.natAbs den

def add : Binary64 → Binary64 → Binary64
  | nan, _ => nan
  | _, nan => nan
  | infinite s, infinite t => if s = t then infinite s else nan
  | infinite s, _ => infinite s
  | _, infinite t => infinite t
  | x, y =>
    if x.isZero && y.isZero then finite (x.negative && y.negative) 0 0
    else
      match x.ratio?, y.ratio? with
      | some (a, b), some (c, d) => ofSigned (a * d + c * b) (b * d)
      | _, _ => nan

def sub (x y : Binary64) : Binary64 := x.add y.neg

def mul : Binary64 → Binary64 → Binary64
  | nan, _ => nan
  | _, nan => nan
  | x, y =>
    let s := x.negative != y.negative
    match x.ratio?, y.ratio? with
    | some (a, b), some (c, d) => ofRatio s (a.natAbs * c.natAbs) (b * d)
    | _, _ => if x.isZero || y.isZero then nan else infinite s

def divNat (x : Binary64) (n : Nat) : Binary64 :=
  match x, x.ratio? with
  | finite s _ _, some (a, b) => ofRatio s a.natAbs (b * n)
  | _, _ => x

/-- The whole number nearest to a finite value, a tie to the even one. -/
def round? (x : Binary64) : Option Int :=
  match x.ratio? with
  | some (a, b) =>
    let n : Int := divNearest a.natAbs b
    some (if a < 0 then -n else n)
  | none => none

end Binary64

end BackendFuzz
