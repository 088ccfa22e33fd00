import BackendFuzz.Text.Utf8

/-!
# Paths

A path is a root and the names from there on. Empty parts and single dots are
dropped when a text is read, double dots are kept.
-/

namespace BackendFuzz

-- The same instance whatever a module that imports this one adds.
attribute [local instance(high)] Zero.ofOfNat0

structure Path where
  /-- Empty for a relative path, else one slash, or exactly two. -/
  root : String
  parts : List String
  deriving DecidableEq, Repr, Inhabited

namespace Path

def pieces (piece : List Char) : List Char → List (List Char)
  | [] => [piece.reverse]
  | '/' :: rest => piece.reverse :: pieces [] rest
  | c :: rest => pieces (c :: piece) rest

def rootOf (cs : List Char) : String :=
  match cs with
  | '/' :: '/' :: '/' :: _ => "/"
  | '/' :: '/' :: _ => "//"
  | '/' :: _ => "/"
  | _ => ""

def ofText (s : String) : Path where
  root := rootOf s.toList
  parts := ((pieces [] s.toList).map String.ofList).filter fun p => p ≠ "" ∧ p ≠ "."

def text (p : Path) : String :=
  if p.root.isEmpty && p.parts.isEmpty then "." else p.root ++ "/".intercalate p.parts

def name (p : Path) : String := p.parts.getLast?.getD ""

/-- A name without what follows its last dot; a dot at either end does not count. -/
def stemOf (cs : List Char) : List Char :=
  let back := cs.reverse
  let ending := back.takeWhile (· ≠ '.')
  match back.dropWhile (· ≠ '.') with
  | '.' :: before => if ending.isEmpty || before.isEmpty then cs else before.reverse
  | _ => cs

def stem (p : Path) : String := String.ofList (stemOf p.name.toList)

def parent (p : Path) : Path := { p with parts := p.parts.dropLast }

def child (p : Path) (name : String) : Path := { p with parts := p.parts ++ [name] }

inductive Flaw where
  | unencodable (run : Text.LoneRun)
  | nul
  deriving DecidableEq, Repr

def Flaw.message : Flaw → String
  | unencodable run => run.message
  | nul => "embedded null byte"

/-- Whether a surrogate stands for a byte that is no part of a text. -/
def isLooseByte (n : Nat) : Bool := 0xDC80 ≤ n && n ≤ 0xDCFF

def flaw? (p : Path) : Option Flaw :=
  match Text.loneRun? isLooseByte 0 (Text.points p.text.toList) with
  | some run => some (.unencodable run)
  | none => if p.text.toList.contains '\x00' then some .nul else none

def byteSize (name : String) : Nat :=
  ((Text.points name.toList).map fun n => if isLooseByte n then 1 else Text.byteCount n).sum

end Path

end BackendFuzz
