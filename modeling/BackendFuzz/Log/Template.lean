import BackendFuzz.Fault

/-!
# Message templates

A template holds directives: a percent sign, flags, a width, a precision and a
letter. Each takes the next argument, or a named one of a single object.
-/

namespace BackendFuzz

-- The same instance whatever a module that imports this one adds.
attribute [local instance(high)] instPowNat

namespace Template

structure Directive where
  leftAligned : Bool := false
  zeroFilled : Bool := false
  signed : Bool := false
  spaced : Bool := false
  marked : Bool := false
  width : Nat := 0
  precision : Option Nat := none
  letter : Char

def setFlag (d : Directive) (c : Char) : Option Directive :=
  if c = '-' then some { d with leftAligned := true }
  else if c = '0' then some { d with zeroFilled := true }
  else if c = '+' then some { d with signed := true }
  else if c = ' ' then some { d with spaced := true }
  else if c = '#' then some { d with marked := true }
  else none

def readFlags (d : Directive) : List Char → Directive × List Char
  | [] => (d, [])
  | c :: rest =>
    match setFlag d c with
    | some d => readFlags d rest
    | none => (d, c :: rest)

def readNat (cs : List Char) : Nat × List Char :=
  (ofDigits (Json.digitsOf (cs.takeWhile Json.isAsciiDigit)), cs.dropWhile Json.isAsciiDigit)

/-- A name up to the parenthesis that closes `depth` others and its own. -/
def closeName (depth : Nat) (done : List Char) : List Char → Option (List Char × List Char)
  | [] => none
  | '(' :: rest => closeName (depth + 1) ('(' :: done) rest
  | ')' :: rest =>
    match depth with
    | 0 => some (done.reverse, rest)
    | depth + 1 => closeName depth (')' :: done) rest
  | c :: rest => closeName depth (c :: done) rest

/-! ## Arguments -/

structure Arguments where
  next : List Json
  named : Option Fields

/-- One object among one argument is a table of named arguments. -/
def Arguments.ofList : List Json → Arguments
  | [.object (f :: fields)] => ⟨[.object (f :: fields)], some (f :: fields)⟩
  | args => ⟨args, none⟩

def Arguments.take (a : Arguments) : Except Fault (Json × Arguments) :=
  match a.next with
  | v :: rest => .ok (v, { a with next := rest })
  | [] => .error (.misuse .tooFewArguments)

def Arguments.choose (a : Arguments) (cs : List Char) : Except Fault (Arguments × List Char) :=
  match cs, a.named with
  | '(' :: _, none => .error (.misuse .mappingNeeded)
  | '(' :: rest, some fields =>
    match closeName 0 [] rest with
    | none => .error (.value "incomplete format key")
    | some (name, after) =>
      match Fields.get? fields (String.ofList name) with
      | some v => .ok ({ a with next := [v] }, after)
      | none => .error (.misuse (.missing (String.ofList name)))
  | _, _ => .ok (a, cs)

/-- A number of a directive: written out, or an argument behind a star; it fits into `bits` bits. -/
def readNumber (what : String) (bits : Nat) (a : Arguments) (cs : List Char) :
    Except Fault (Int × Arguments × List Char) := do
  let most : Int := 2 ^ (bits - 1) - 1
  match cs with
  | '*' :: rest =>
    let (v, a) ← a.take
    let n : Int ← match v with
      | .int n => pure n
      | .bool b => pure (if b then 1 else 0)
      | _ => throw (.misuse .starNeeded)
    if n < -most - 1 ∨ most < n then throw (.overflow (what ++ " too big"))
    return (n, a, rest)
  | _ =>
    let (n, rest) := readNat cs
    if most < n then throw (.value (what ++ " too big"))
    return (n, a, rest)

def readDirective (a : Arguments) (cs : List Char) :
    Except Fault (Directive × Arguments × List Char) := do
  let (a, cs) ← a.choose cs
  let (d, cs) := readFlags { letter := ' ' } cs
  let (width, a, cs) ← readNumber "width" 64 a cs
  let (precision, a, cs) ←
    match cs with
    | '.' :: rest => do
      let (n, a, rest) ← readNumber "precision" 32 a rest
      pure (some n.toNat, a, rest)
    | _ => pure (none, a, cs)
  let cs := match cs with
    | c :: rest => if c = 'l' ∨ c = 'h' ∨ c = 'L' then rest else cs
    | [] => []
  match cs with
  | [] => .error (.value "incomplete format")
  | c :: rest =>
    let leftAligned := d.leftAligned || width < 0
    return ({ d with leftAligned, width := width.natAbs, precision, letter := c }, a, rest)

/-! ## Layout -/

def mostRoom : Nat := 2 ^ (31 : Nat) - 4

def filler (c : Char) (wanted count : Nat) : Except Fault (List Char) :=
  if mostRoom < wanted then .error .memory else .ok (List.replicate (wanted - count) c)

def aligned (d : Directive) (cs : List Char) : Except Fault (List Char) := do
  let gap ← filler ' ' d.width (Text.points cs).length
  return if d.leftAligned then cs ++ gap else gap ++ cs

def numeral (d : Directive) (negative : Bool) (mark digits : List Char) :
    Except Fault (List Char) := do
  let sign := if negative then ['-'] else if d.signed then ['+'] else if d.spaced then [' '] else []
  let front := sign ++ mark
  if d.zeroFilled && !d.leftAligned then
    return front ++ (← filler '0' d.width (front.length + digits.length)) ++ digits
  else aligned d (front ++ digits)

def digitsIn (base n : Nat) : List Char := Nat.toDigits base n

def wholeNumeral (d : Directive) (base : Nat) (mark : String) (n : Int) :
    Except Fault (List Char) := do
  let digits := digitsIn base n.natAbs
  let precision := d.precision.getD 0
  if mostRoom < precision then throw (.overflow "precision too large")
  let digits := (← filler '0' precision digits.length) ++ digits
  numeral d (n < 0) (if d.marked then mark.toList else []) digits

def truncated (letter : Char) : Json → Except Fault Int
  | .int n => .ok n
  | .bool b => .ok (if b then 1 else 0)
  | .real x =>
    match x.ratio? with
    | some (a, b) => .ok (a.tdiv b)
    | none =>
      if x.isNaN then .error (.value "cannot convert float NaN to integer")
      else .error (.overflow "cannot convert float infinity to integer")
  | v => .error (.misuse (.operand s!"%{letter} format: a real number is required" v.kind))

def exact (letter : Char) : Json → Except Fault Int
  | .int n => .ok n
  | .bool b => .ok (if b then 1 else 0)
  | v => .error (.misuse (.operand s!"%{letter} format: an integer is required" v.kind))

def binary : Json → Except Fault Binary64
  | .int n =>
    match Binary64.ofInt n with
    | .infinite _ => .error (.overflow "int too large to convert to float")
    | x => .ok x
  | .bool b => .ok (Binary64.ofInt (if b then 1 else 0))
  | .real x => .ok x
  | v => .error (.misuse (.operand "must be real number" v.kind))

def realNumeral (d : Directive) (x : Binary64) : Except Fault (List Char) := do
  let magnitude := if x.negative then x.neg else x
  let precision := d.precision.getD 6
  if mostRoom < precision then throw .memory
  let kind := d.letter.toLower
  let shown :=
    if kind = 'f' then magnitude.fixedText precision
    else if kind = 'e' then magnitude.scientificText precision
    else magnitude.generalText (precision - 1) d.marked
  let cs := if d.letter.isUpper then shown.toList.map Char.toUpper else shown.toList
  let isFinite := x.ratio?.isSome
  let cs :=
    if d.marked && isFinite && !cs.contains '.' then
      cs.takeWhile Char.isDigit ++ '.' :: cs.dropWhile Char.isDigit
    else cs
  numeral d x.negative [] cs

def textual (d : Directive) (s : String) : Except Fault (List Char) :=
  aligned d <| match d.precision with
    | some n => ((Text.points s.toList).take n).flatMap Text.held
    | none => s.toList

def asciiOnly (s : String) : String :=
  String.ofList (s.toList.flatMap fun c => if c.toNat < 0x80 then [c] else Text.numericEscape c.toNat)

def character (n : Int) : Except Fault (List Char) :=
  if n < 0 ∨ 0x110000 ≤ n then .error (.overflow "%c arg not in range(0x110000)")
  else .ok (Text.held n.toNat)

def rendered (d : Directive) (v : Json) : Except Fault (List Char) := do
  if d.letter = 's' then textual d v.display
  else if d.letter = 'r' then textual d v.literal
  else if d.letter = 'a' then textual d (asciiOnly v.literal)
  else if d.letter = 'd' ∨ d.letter = 'i' ∨ d.letter = 'u' then
    wholeNumeral d 10 "" (← truncated d.letter v)
  else if d.letter = 'x' then wholeNumeral d 16 "0x" (← exact d.letter v)
  else if d.letter = 'X' then
    return (← wholeNumeral d 16 "0x" (← exact d.letter v)).map Char.toUpper
  else if d.letter = 'o' then wholeNumeral d 8 "0o" (← exact d.letter v)
  else if ['e', 'f', 'g'].contains d.letter.toLower then realNumeral d (← binary v)
  else if d.letter = 'c' then
    match v with
    | .text s => if Text.length s = 1 then aligned d s.toList else throw (.misuse .characterNeeded)
    | .int n => aligned d (← character n)
    | .bool b => aligned d (← character (if b then 1 else 0))
    | _ => throw (.misuse .characterNeeded)
  else throw (.value "unsupported format character")

/-! ## Filling in -/

/-- Fills in the directives of a template, at most `fuel` of them. -/
def fill : Nat → Arguments → List Char → Except Fault (List Char)
  | 0, _, cs => .ok cs
  | fuel + 1, args, cs =>
    match cs.dropWhile (· ≠ '%') with
    | [] =>
      if args.named.isNone && !args.next.isEmpty then .error (.misuse .tooManyArguments)
      else .ok (cs.takeWhile (· ≠ '%'))
    | _ :: '%' :: rest => do
      return cs.takeWhile (· ≠ '%') ++ '%' :: (← fill fuel args rest)
    | _ :: rest => do
      let (d, args, rest) ← readDirective args rest
      let (v, args) ← args.take
      let shown ← rendered d v
      return cs.takeWhile (· ≠ '%') ++ shown ++ (← fill fuel args rest)

end Template

/-- A template with its arguments filled in; without arguments it is taken as it stands. -/
def fillTemplate (template : String) (args : List Json) : Except Fault String :=
  if args.isEmpty then .ok template
  else
    let cs := template.toList
    (Template.fill (cs.length + 1) (Template.Arguments.ofList args) cs).map String.ofList

end BackendFuzz
