import BackendFuzz.Json.Basic
import BackendFuzz.Number.Whole
import BackendFuzz.Text.Surrogate

/-!
# Reading JSON

Besides the standard grammar, `NaN` and the infinities are numbers. A reader
takes the characters still to come and gives back a value and what is left; a
refusal says how many characters were left where it arose, from which its
position in the text follows.
-/

namespace BackendFuzz

namespace Json

inductive SyntaxCause where
  | value
  | propertyName
  | colon
  | comma
  | extraData
  | unterminatedString
  | controlCharacter
  | escape
  | unicodeEscape
  | byteOrderMark
  deriving DecidableEq, Repr

def SyntaxCause.message : SyntaxCause → String
  | value => "Expecting value"
  | propertyName => "Expecting property name enclosed in double quotes"
  | colon => "Expecting ':' delimiter"
  | comma => "Expecting ',' delimiter"
  | extraData => "Extra data"
  | unterminatedString => "Unterminated string starting at"
  | controlCharacter => "Invalid control character at"
  | escape => "Invalid \\escape"
  | unicodeEscape => "Invalid \\uXXXX escape"
  | byteOrderMark => "Unexpected UTF-8 BOM (decode using utf-8-sig)"

/-- What values can lie inside. -/
inductive Nest where
  | array
  | object
  deriving DecidableEq, Repr

def Nest.name : Nest → String
  | array => "array"
  | object => "object"

inductive Refusal where
  /-- The text breaks the grammar where `left` characters were still to come. -/
  | malformed (cause : SyntaxCause) (left : Nat)
  /-- A whole number has too many digits. -/
  | tooLong (digits : Nat)
  /-- An array or object lies inside too many others. -/
  | tooDeep (nest : Nest)
  deriving DecidableEq, Repr

def refuse {α : Type} (cause : SyntaxCause) (rest : List Char) : Except Refusal α :=
  .error (.malformed cause rest.length)

/-! ## Blanks -/

def isJsonBlank (c : Char) : Bool := c == ' ' || c == '\t' || c == '\n' || c == '\r'

def skipBlanks (cs : List Char) : List Char := cs.dropWhile isJsonBlank

/-! ## Strings -/

def hexValue? (c : Char) : Option Nat :=
  if '0' ≤ c ∧ c ≤ '9' then some (c.toNat - '0'.toNat)
  else if 'a' ≤ c ∧ c ≤ 'f' then some (c.toNat - 'a'.toNat + 10)
  else if 'A' ≤ c ∧ c ≤ 'F' then some (c.toNat - 'A'.toNat + 10)
  else none

def unit? (a b c d : Char) : Option Nat := do
  let w ← hexValue? a
  let x ← hexValue? b
  let y ← hexValue? c
  let z ← hexValue? d
  return ((w * 16 + x) * 16 + y) * 16 + z

def charOfUnit (n : Nat) : Char :=
  if Text.isSurrogate n then Text.standIn n else Char.ofNat n

def arePair (high low : Nat) : Bool :=
  Text.isHighSurrogate high && Text.isLowSurrogate low && !Text.isStandIn (Text.pairPoint high low)

def simpleEscape? (c : Char) : Option Char :=
  if c = '"' ∨ c = '\\' ∨ c = '/' then some c
  else if c = 'b' then some '\x08'
  else if c = 'f' then some '\x0c'
  else if c = 'n' then some '\n'
  else if c = 'r' then some '\r'
  else if c = 't' then some '\t'
  else none

/-- One step inside a string: a character of it with what is left, or its end. -/
inductive Piece where
  | char (c : Char) (rest : List Char)
  | closed (rest : List Char)

/-- What the high unit before `rest` and the escape in `rest` make together, if they are a pair. -/
def pairWith? (high : Nat) (rest : List Char) : Except Refusal (Option (Char × List Char)) :=
  match rest with
  | '\\' :: 'u' :: a :: b :: c :: d :: e :: more =>
    match unit? a b c d with
    | none => refuse .unicodeEscape ('u' :: a :: b :: c :: d :: e :: more)
    | some low =>
      if arePair high low then .ok (some (Char.ofNat (Text.pairPoint high low), e :: more))
      else .ok none
  | _ => .ok none

def unicodePiece (cs : List Char) : Except Refusal Piece :=
  match cs with
  | a :: b :: c :: d :: e :: rest =>
    match unit? a b c d with
    | none => refuse .unicodeEscape ('u' :: cs)
    | some n =>
      if Text.isHighSurrogate n then do
        match ← pairWith? n (e :: rest) with
        | some (p, more) => return .char p more
        | none => return .char (charOfUnit n) (e :: rest)
      else .ok (.char (charOfUnit n) (e :: rest))
  | _ => refuse .unicodeEscape ('u' :: cs)

def piece (opening cs : List Char) : Except Refusal Piece :=
  match cs with
  | [] => refuse .unterminatedString opening
  | '"' :: rest => .ok (.closed rest)
  | ['\\'] => refuse .unterminatedString opening
  | '\\' :: 'u' :: rest => unicodePiece rest
  | '\\' :: c :: rest =>
    match simpleEscape? c with
    | some x => .ok (.char x rest)
    | none => refuse .escape cs
  | c :: rest => if c.toNat < 0x20 then refuse .controlCharacter cs else .ok (.char c rest)

/-- Reads the rest of a string, at most `fuel` steps of it; `done` is reversed. -/
def stringRest (opening : List Char) :
    Nat → List Char → List Char → Except Refusal (String × List Char)
  | 0, _, _ => refuse .unterminatedString opening
  | fuel + 1, done, cs =>
    match piece opening cs with
    | .error e => .error e
    | .ok (.closed rest) => .ok (String.ofList done.reverse, rest)
    | .ok (.char c rest) => stringRest opening fuel (c :: done) rest

/-! ## Numbers -/

def isAsciiDigit (c : Char) : Bool := '0' ≤ c && c ≤ '9'

def digitsOf (cs : List Char) : List Nat := cs.map fun c => c.toNat - '0'.toNat

def wholePart? (cs : List Char) : Option (List Char × List Char) :=
  match cs with
  | '0' :: rest => some (['0'], rest)
  | c :: _ =>
    if isAsciiDigit c then some (cs.takeWhile isAsciiDigit, cs.dropWhile isAsciiDigit) else none
  | [] => none

def fractionPart (cs : List Char) : Option (List Char) × List Char :=
  match cs with
  | '.' :: c :: rest =>
    if isAsciiDigit c then
      (some ((c :: rest).takeWhile isAsciiDigit), (c :: rest).dropWhile isAsciiDigit)
    else (none, cs)
  | _ => (none, cs)

def exponentSign (cs : List Char) : Bool × List Char :=
  match cs with
  | '-' :: rest => (true, rest)
  | '+' :: rest => (false, rest)
  | _ => (false, cs)

def exponentPart (cs : List Char) : Option Int × List Char :=
  match cs with
  | c :: rest =>
    if c = 'e' ∨ c = 'E' then
      let (minus, ds) := exponentSign rest
      let digits := ds.takeWhile isAsciiDigit
      if digits.isEmpty then (none, cs)
      else
        let n : Int := ofDigits (digitsOf digits)
        (some (if minus then -n else n), ds.dropWhile isAsciiDigit)
    else (none, cs)
  | [] => (none, cs)

/-- Reads a number from `cs`, which starts at its digits; `start` starts at its sign. -/
def readNumber (start : List Char) (minus : Bool) (cs : List Char) :
    Except Refusal (Json × List Char) :=
  match wholePart? cs with
  | none => refuse .value start
  | some (whole, rest) =>
    let (fraction, rest) := fractionPart rest
    let (exponent, rest) := exponentPart rest
    match fraction, exponent with
    | none, none =>
      if maxDigits < whole.length then .error (.tooLong whole.length)
      else
        let n : Int := ofDigits (digitsOf whole)
        .ok (int (if minus then -n else n), rest)
    | _, _ =>
      let places := fraction.getD []
      let power := exponent.getD 0 - places.length
      .ok (real (Binary64.ofDecimal minus (ofDigits (digitsOf (whole ++ places))) power), rest)

/-! ## Values -/

def maxDepth : Nat := 985

def inside (nest : Nest) : Nat → Except Refusal Nat
  | 0 => .error (.tooDeep nest)
  | room + 1 => .ok room

mutual

/-- Reads a value that holds at most `room` levels of others, in at most `fuel` steps. -/
def readValue : Nat → Nat → List Char → Except Refusal (Json × List Char)
  | _, 0, cs => refuse .value cs
  | room, fuel + 1, cs =>
    match cs with
    | '"' :: rest => do
      let (s, rest) ← stringRest cs fuel [] rest
      return (text s, rest)
    | '{' :: rest => do
      let room ← inside .object room
      match skipBlanks rest with
      | '}' :: rest => return (object [], rest)
      | rest =>
        let (mentions, rest) ← readFields room fuel rest
        return (object (Fields.ofMentions mentions), rest)
    | '[' :: rest => do
      let room ← inside .array room
      match skipBlanks rest with
      | ']' :: rest => return (array [], rest)
      | rest =>
        let (items, rest) ← readItems room fuel rest
        return (array items, rest)
    | 'n' :: 'u' :: 'l' :: 'l' :: rest => .ok (null, rest)
    | 't' :: 'r' :: 'u' :: 'e' :: rest => .ok (bool true, rest)
    | 'f' :: 'a' :: 'l' :: 's' :: 'e' :: rest => .ok (bool false, rest)
    | 'N' :: 'a' :: 'N' :: rest => .ok (real .nan, rest)
    | 'I' :: 'n' :: 'f' :: 'i' :: 'n' :: 'i' :: 't' :: 'y' :: rest =>
      .ok (real (.infinite false), rest)
    | '-' :: 'I' :: 'n' :: 'f' :: 'i' :: 'n' :: 'i' :: 't' :: 'y' :: rest =>
      .ok (real (.infinite true), rest)
    | '-' :: rest => readNumber cs true rest
    | _ => readNumber cs false cs

def readItems : Nat → Nat → List Char → Except Refusal (List Json × List Char)
  | _, 0, cs => refuse .value cs
  | room, fuel + 1, cs => do
    let (v, rest) ← readValue room fuel cs
    match skipBlanks rest with
    | ']' :: rest => return ([v], rest)
    | ',' :: rest =>
      let (vs, rest) ← readItems room fuel (skipBlanks rest)
      return (v :: vs, rest)
    | rest => refuse .comma rest

def readFields : Nat → Nat → List Char → Except Refusal (List (String × Json) × List Char)
  | _, 0, cs => refuse .value cs
  | room, fuel + 1, cs =>
    match cs with
    | '"' :: rest => do
      let (name, rest) ← stringRest cs fuel [] rest
      match skipBlanks rest with
      | ':' :: rest =>
        let (v, rest) ← readValue room fuel (skipBlanks rest)
        match skipBlanks rest with
        | '}' :: rest => return ([(name, v)], rest)
        | ',' :: rest =>
          let (more, rest) ← readFields room fuel (skipBlanks rest)
          return ((name, v) :: more, rest)
        | rest => refuse .comma rest
      | rest => refuse .colon rest
    | _ => refuse .propertyName cs

end

def readText (room : Nat) (cs : List Char) : Except Refusal Json :=
  match cs with
  | '\uFEFF' :: _ => refuse .byteOrderMark cs
  | _ =>
    match readValue room (2 * cs.length + 2) (skipBlanks cs) with
    | .error e => .error e
    | .ok (v, rest) =>
      match skipBlanks rest with
      | [] => .ok v
      | more => refuse .extraData more

/-! ## Positions -/

def lineAndColumn (before : List Nat) : Nat × Nat :=
  before.foldl (fun p n => if n = '\n'.toNat then (p.1 + 1, 1) else (p.1, p.2 + 1)) (1, 1)

structure SyntaxFault where
  cause : SyntaxCause
  position : Nat
  line : Nat
  column : Nat
  deriving DecidableEq, Repr

def SyntaxFault.message (f : SyntaxFault) : String :=
  s!"{f.cause.message}: line {f.line} column {f.column} (char {f.position})"

inductive ParseFault where
  | malformed (fault : SyntaxFault)
  | tooLong (digits : Nat)
  | tooDeep (nest : Nest)
  deriving DecidableEq, Repr

def Refusal.locate (cs : List Char) : Refusal → ParseFault
  | .malformed cause left =>
    let before := Text.points (cs.take (cs.length - left))
    let (line, column) := lineAndColumn before
    .malformed ⟨cause, before.length, line, column⟩
  | .tooLong digits => .tooLong digits
  | .tooDeep nest => .tooDeep nest

def parseWithin (room : Nat) (s : String) : Except ParseFault Json :=
  (readText room s.toList).mapError (Refusal.locate s.toList)

/-- Reads a text as one JSON value. -/
def parse (s : String) : Except ParseFault Json := parseWithin maxDepth s

end Json

end BackendFuzz
