/-!
# Lone surrogates

A text may hold one half of a surrogate pair on its own. Characters of a private
block stand in for the halves; a character of that block itself is held as the
stand-ins of its two halves.
-/

namespace BackendFuzz.Text

def isHighSurrogate (n : Nat) : Bool := 0xD800 ≤ n && n ≤ 0xDBFF

def isLowSurrogate (n : Nat) : Bool := 0xDC00 ≤ n && n ≤ 0xDFFF

def isSurrogate (n : Nat) : Bool := 0xD800 ≤ n && n ≤ 0xDFFF

def pairPoint (high low : Nat) : Nat := 0x10000 + (high - 0xD800) * 0x400 + (low - 0xDC00)

/-- Whether a code point is in the block of the stand-ins. -/
def isStandIn (n : Nat) : Bool := 0x10D800 ≤ n && n ≤ 0x10DFFF

def standIn (surrogate : Nat) : Char := Char.ofNat (0x100000 + surrogate)

def held (n : Nat) : List Char :=
  if isSurrogate n then [standIn n]
  else if isStandIn n then
    [standIn (0xD800 + (n - 0x10000) / 0x400), standIn (0xDC00 + (n - 0x10000) % 0x400)]
  else [Char.ofNat n]

def point (c : Char) : Nat := if isStandIn c.toNat then c.toNat - 0x100000 else c.toNat

/-- The character of the block that two characters hold together. -/
def together? (a b : Char) : Option Nat :=
  let n := pairPoint (point a) (point b)
  if isHighSurrogate (point a) && isLowSurrogate (point b) && isStandIn n then some n else none

/-- The code points of a text, with the surrogates among them. -/
def points : List Char → List Nat
  | a :: b :: rest =>
    match together? a b with
    | some n => n :: points rest
    | none => point a :: points (b :: rest)
  | [a] => [point a]
  | [] => []

def hold (cs : List Char) : List Char := cs.flatMap fun c => held c.toNat

def length (s : String) : Nat := (points s.toList).length

end BackendFuzz.Text
