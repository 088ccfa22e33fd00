import BackendFuzz.Text.Blank

/-!
# Environment files

Lines that give names a value: bare up to a comment, or quoted, also over
several lines. A value may refer to earlier names and to the environment. A line
that cannot be read is skipped.
-/

namespace BackendFuzz

namespace EnvFile

/-- A name, if the line has one, with its value, if it has one. -/
structure Binding where
  name : Option String
  value : Option String

def isLineEnd (c : Char) : Bool := c == '\n' || c == '\r'

def isGap (c : Char) : Bool := Text.isBlank c && !isLineEnd c

def skipGap (cs : List Char) : List Char := cs.dropWhile isGap

def skipExport (cs : List Char) : List Char :=
  match cs with
  | 'e' :: 'x' :: 'p' :: 'o' :: 'r' :: 't' :: c :: rest => if isGap c then skipGap rest else cs
  | _ => cs

def isBareNameChar (c : Char) : Bool := c != '=' && c != '#' && !Text.isBlank c

def readName (cs : List Char) : Except (List Char) (Option String × List Char) :=
  match cs with
  | '#' :: _ => .ok (none, cs)
  | '\x27' :: rest =>
    let name := rest.takeWhile (· ≠ '\x27')
    match name, rest.dropWhile (· ≠ '\x27') with
    | _ :: _, _ :: after => .ok (some (String.ofList name), after)
    | _, _ => .error cs
  | _ =>
    let name := cs.takeWhile isBareNameChar
    if name.isEmpty then .error cs
    else .ok (some (String.ofList name), cs.dropWhile isBareNameChar)

/-- Splits behind the closing quote, which has no backslash before it; `done` is reversed. -/
def closeQuote (quote : Char) (done : List Char) : List Char → Option (List Char × List Char)
  | [] => none
  | '\\' :: c :: rest => closeQuote quote (c :: '\\' :: done) rest
  | c :: rest => if c = quote then some (done.reverse, rest) else closeQuote quote (c :: done) rest

def singleEscape? (c : Char) : Option Char :=
  if c = '\\' ∨ c = '\x27' then some c else none

def doubleEscape? (c : Char) : Option Char :=
  if c = '\\' ∨ c = '\x27' ∨ c = '"' then some c
  else if c = 'a' then some '\x07'
  else if c = 'b' then some '\x08'
  else if c = 'f' then some '\x0c'
  else if c = 'n' then some '\n'
  else if c = 'r' then some '\r'
  else if c = 't' then some '\t'
  else if c = 'v' then some '\x0b'
  else none

def unescape (escape? : Char → Option Char) : List Char → List Char
  | [] => []
  | '\\' :: c :: rest =>
    match escape? c with
    | some x => x :: unescape escape? rest
    | none => '\\' :: unescape escape? (c :: rest)
  | c :: rest => c :: unescape escape? rest

/-- A bare value up to a comment, which has a blank before it. -/
def beforeComment : List Char → List Char
  | [] => []
  | c :: rest =>
    if Text.isBlank c then
      match (c :: rest).dropWhile Text.isBlank with
      | '#' :: _ => []
      | _ => c :: beforeComment rest
    else c :: beforeComment rest

def readValue (behind : List Char) : Except (List Char) (String × List Char) :=
  let cs := skipGap behind
  let quoted (quote : Char) (escape? : Char → Option Char) (rest : List Char) :
      Except (List Char) (String × List Char) :=
    match closeQuote quote [] rest with
    | some (body, after) => .ok (String.ofList (unescape escape? body), after)
    | none => .error cs
  match cs with
  | '\x27' :: rest => quoted '\x27' singleEscape? rest
  | '"' :: rest => quoted '"' doubleEscape? rest
  | _ =>
    let line := beforeComment (behind.takeWhile (!isLineEnd ·))
    .ok (String.ofList (skipGap (Text.trimRight line)), cs.dropWhile (!isLineEnd ·))

def finishLine (cs : List Char) : Except (List Char) (List Char) :=
  let cs := match skipGap cs with
    | '#' :: rest => rest.dropWhile (!isLineEnd ·)
    | _ => cs
  match skipGap cs with
  | [] => .ok []
  | '\r' :: '\n' :: rest => .ok rest
  | c :: rest => if isLineEnd c then .ok rest else .error cs

def readBinding (cs : List Char) : Except (List Char) (Binding × List Char) := do
  let (name, cs) ← readName (skipExport cs)
  let cs := skipGap cs
  match cs with
  | '=' :: rest =>
    let (value, cs) ← readValue rest
    return ({ name, value := some value }, ← finishLine cs)
  | _ => return ({ name, value := none }, ← finishLine cs)

def skipLine (cs : List Char) : List Char :=
  match cs.dropWhile (!isLineEnd ·) with
  | _ :: rest => rest
  | [] => []

/-- What was read at one place: a binding, or nothing, with the text from that place on. -/
inductive Statement where
  | binding (b : Binding)
  | unreadable (start : List Char)

def readStatements : Nat → List Char → List Statement
  | 0, _ => []
  | fuel + 1, start =>
    match start.dropWhile Text.isBlank with
    | [] => []
    | cs =>
      match readBinding cs with
      | .ok (b, rest) => .binding b :: readStatements fuel rest
      | .error rest => .unreadable start :: readStatements fuel (skipLine rest)

/-! ## References -/

/-- The value of a name, if the name is known and has one. -/
abbrev Values := List (String × Option String)

def put (values : Values) (name : String) (value : Option String) : Values :=
  match values with
  | [] => [(name, value)]
  | (n, v) :: rest => if n = name then (n, value) :: rest else (n, v) :: put rest name value

/-- A reference behind `$\x7b`: its name, the default, and the text after it. -/
def reference? (cs : List Char) : Option (String × String × List Char) :=
  let inName (c : Char) : Bool := c != '\x7d' && c != ':'
  let name := String.ofList (cs.takeWhile inName)
  match cs.dropWhile inName with
  | ':' :: '-' :: rest =>
    match rest.dropWhile (· ≠ '\x7d') with
    | _ :: after => some (name, String.ofList (rest.takeWhile (· ≠ '\x7d')), after)
    | [] => none
  | '\x7d' :: after => some (name, "", after)
  | _ => none

/-- What a reference stands for: an earlier name of the file, else one of the environment. -/
def referred (environment : List (String × String)) (values : Values) (name default : String) :
    String :=
  match values.lookup name with
  | some value => value.getD ""
  | none => (environment.lookup name).getD default

def replaceReferences (environment : List (String × String)) (values : Values) :
    Nat → List Char → List Char
  | 0, cs => cs
  | _ + 1, [] => []
  | fuel + 1, '$' :: '\x7b' :: rest =>
    match reference? rest with
    | some (name, default, after) =>
      (referred environment values name default).toList ++
        replaceReferences environment values fuel after
    | none => '$' :: replaceReferences environment values fuel ('\x7b' :: rest)
  | fuel + 1, c :: rest => c :: replaceReferences environment values fuel rest

def assign (environment : List (String × String)) (values : Values) (s : Statement) : Values :=
  match s with
  | .binding { name := some name, value } =>
    put values name (value.map fun v =>
      String.ofList (replaceReferences environment values (v.length + 1) v.toList))
  | _ => values

def withoutMark : List Char → List Char
  | '\ufeff' :: rest => rest
  | cs => cs

def statements (text : String) : List Statement :=
  readStatements (text.length + 1) (withoutMark text.toList)

def values (environment : List (String × String)) (text : String) : Values :=
  (statements text).foldl (assign environment) []

def lineOf (text : String) (start : List Char) : Nat :=
  1 + (text.toList.count '\n' - start.count '\n')

def unreadableLines (text : String) : List Nat :=
  (statements text).filterMap fun s =>
    match s with
    | .binding _ => none
    | .unreadable start => some (lineOf text start)

end EnvFile

end BackendFuzz
