import BackendFuzz.CommandLine.Options
import BackendFuzz.Given
import BackendFuzz.Number.Whole
import BackendFuzz.Path

/-!
# Arguments

The arguments are sorted first: a word with a dash in front is an option, by its
name or by a front part that fits no other name, unless it reads as a negative
number or has a space in it; after two dashes alone no word is an option. The
first group of words that belong to no option are the seeds.
-/

namespace BackendFuzz

structure Arguments where
  seeds : List Path := []
  compilerVersions : Option (List String) := none
  compilerSettings : Option (Given String) := none
  rewrites : Option (Given Path) := none
  rewriteDepth : Given Int := .value 1
  numTests : Option (Given Int) := none
  save : Bool := false
  testCallFunction : Option (Given String) := none
  testEof : Bool := false
  verbose : Given Int := .value 0
  timeLimit : Option (Given Int) := none
  output : Given Path := .value (Path.ofText "fuzzer-results")
  seed : Option (Given Int) := none
  deriving Repr

inductive ArgumentStop where
  | help
  | version
  | refused (message : String)
  deriving DecidableEq, Repr

namespace Arguments

/-! ## Sorting -/

/-- A word that is an option: which one, if known, and a value attached to it. -/
structure OptionWord where
  flag : Option Flag
  name : String
  attached : Option String
  deriving DecidableEq, Repr

inductive WordKind where
  | value
  | dashes
  | option (o : OptionWord)
  deriving DecidableEq, Repr

def splitEquals (s : String) : Option (String × String) :=
  let cs := s.toList
  match cs.dropWhile (· ≠ '=') with
  | _ :: rest => some (String.ofList (cs.takeWhile (· ≠ '=')), String.ofList rest)
  | [] => none

def flagNamed (name : String) : Option Flag := Flag.table.lookup name

/-- The options that a word may be short for. -/
def candidates (word : String) : List OptionWord :=
  match word.toList with
  | '-' :: '-' :: _ =>
    let (front, attached) := match splitEquals word with
      | some (front, value) => (front, some value)
      | none => (word, none)
    (Flag.table.filter fun e => front.toList.isPrefixOf e.1.toList).map fun e =>
      ⟨some e.2, e.1, attached⟩
  | a :: b :: rest =>
    let short := String.ofList [a, b]
    Flag.table.filterMap fun e =>
      if e.1 = short then some ⟨some e.2, e.1, some (String.ofList rest)⟩
      else if word.toList.isPrefixOf e.1.toList then some ⟨some e.2, e.1, none⟩
      else none
  | _ => []

/-- A dash and digits, or a dash and digits around a point with some behind it. -/
def isNegativeNumber (word : String) : Bool :=
  let cs := word.toList
  let cs := if cs.getLast? = some '\n' then cs.dropLast else cs
  match cs with
  | '-' :: body =>
    match body.dropWhile Text.isDigit with
    | [] => !body.isEmpty
    | '.' :: places => !places.isEmpty && places.all Text.isDigit
    | _ => false
  | _ => false

/-- What a word is that stands before any two dashes alone. -/
def sortWord (word : String) : Except ArgumentStop WordKind :=
  if word.toList.head? ≠ some '-' then .ok .value
  else
    match flagNamed word with
    | some flag => .ok (.option ⟨some flag, word, none⟩)
    | none =>
      if word.length = 1 then .ok .value
      else
        let exact := do
          let (name, value) ← splitEquals word
          let flag ← flagNamed name
          return OptionWord.mk (some flag) name (some value)
        match exact with
        | some o => .ok (.option o)
        | none =>
          match candidates word with
          | [o] => .ok (.option o)
          | o :: more =>
            let names := ", ".intercalate ((o :: more).map (·.name))
            .error (.refused s!"ambiguous option: {word} could match {names}")
          | [] =>
            if isNegativeNumber word || word.toList.contains ' ' then .ok .value
            else .ok (.option ⟨none, word, none⟩)

def sortWords : List String → Except ArgumentStop (List (WordKind × String))
  | [] => .ok []
  | "--" :: rest => .ok ((.dashes, "--") :: rest.map (.value, ·))
  | word :: rest => do
    let kind ← sortWord word
    return (kind, word) :: (← sortWords rest)

/-! ## Taking values -/

def refuseOption {α : Type} (flag : Flag) (reason : String) : Except ArgumentStop α :=
  .error (.refused s!"argument {flag.label}: {reason}")

def first : List String → Given String
  | value :: _ => .value value
  | [] => .nothing

def wholeValue (flag : Flag) (value : Given String) : Except ArgumentStop (Given Int) :=
  match value with
  | .nothing => .ok .nothing
  | .value text =>
    match readWhole? text with
    | some n => .ok (.value n)
    | none => refuseOption flag s!"invalid int value: {Text.quote text}"

def store (a : Arguments) (flag : Flag) (values : List String) : Except ArgumentStop Arguments :=
  let value := first values
  match flag with
  | .help => .error .help
  | .version => .error .version
  | .compilerVersions => .ok { a with compilerVersions := some values }
  | .compilerSettings => .ok { a with compilerSettings := some value }
  | .rewrites => .ok { a with rewrites := some (value.map Path.ofText) }
  | .rewriteDepth => do return { a with rewriteDepth := ← wholeValue flag value }
  | .numTests => do return { a with numTests := some (← wholeValue flag value) }
  | .save => .ok { a with save := true }
  | .testCallFunction => .ok { a with testCallFunction := some value }
  | .testEof => .ok { a with testEof := true }
  | .verbose => do return { a with verbose := ← wholeValue flag value }
  | .timeLimit => do return { a with timeLimit := some (← wholeValue flag value) }
  | .output => .ok { a with output := value.map Path.ofText }
  | .seed => do return { a with seed := some (← wholeValue flag value) }

/-- What is refused of a value attached to an option without values: its short name takes its letter again. -/
def refusedPart (name value : String) : List Char :=
  if name = "-h" then value.toList.dropWhile (· = 'h') else value.toList

def storeAttached (a : Arguments) (flag : Flag) (name value : String) :
    Except ArgumentStop Arguments :=
  match flag.arity with
  | .none =>
    let part := refusedPart name value
    if part.isEmpty && !value.isEmpty then a.store flag []
    else refuseOption flag s!"ignored explicit argument {Text.quote (String.ofList part)}"
  | _ => a.store flag ([value].erase "--")

def isValue (w : WordKind × String) : Bool := w.1 = .value

def storeFollowing (a : Arguments) (flag : Flag) (rest : List (WordKind × String)) :
    Except ArgumentStop (Arguments × List (WordKind × String)) :=
  match flag.arity with
  | .none => do return (← a.store flag [], rest)
  | .one =>
    match rest with
    | (.value, value) :: rest => do return (← a.store flag [value], rest)
    | _ => refuseOption flag "expected one argument"
  | .oneOrMore =>
    let values := (rest.takeWhile isValue).map (·.2)
    if values.isEmpty then refuseOption flag "expected at least one argument"
    else do return (← a.store flag values, rest.dropWhile isValue)

/-- The seeds among words, of which the first two dashes alone are dropped. -/
def seedsOf (words : List (WordKind × String)) : List Path :=
  ((words.map (·.2)).erase "--").map Path.ofText

def isOption (w : WordKind × String) : Bool :=
  match w.1 with
  | .option _ => true
  | _ => false

structure Progress where
  arguments : Arguments := {}
  seedsTaken : Bool := false
  unknown : List String := []

/-- Words that belong to no option: seeds the first time, unknown from then on. -/
def Progress.loose (p : Progress) (words : List (WordKind × String)) : Progress :=
  if p.seedsTaken then { p with unknown := p.unknown ++ words.map (·.2) }
  else { p with arguments := { p.arguments with seeds := seedsOf words }, seedsTaken := true }

def readWords : Nat → Progress → List (WordKind × String) → Except ArgumentStop Progress
  | 0, p, _ => .ok p
  | fuel + 1, p, words =>
    if !words.any isOption then .ok (p.loose words)
    else
      match words with
      | (.option o, word) :: rest =>
        match o.flag, o.attached with
        | none, _ => readWords fuel { p with unknown := p.unknown ++ [word] } rest
        | some flag, some value => do
          let a ← p.arguments.storeAttached flag o.name value
          readWords fuel { p with arguments := a } rest
        | some flag, none => do
          let (a, rest) ← p.arguments.storeFollowing flag rest
          readWords fuel { p with arguments := a } rest
      | words =>
        readWords fuel (p.loose (words.takeWhile (!isOption ·))) (words.dropWhile (!isOption ·))

def ofWords (words : List String) : Except ArgumentStop Arguments := do
  let sorted ← sortWords words
  let p ← readWords (2 * sorted.length + 1) {} sorted
  if p.unknown.isEmpty then return p.arguments
  else throw (.refused ("unrecognized arguments: " ++ " ".intercalate p.unknown))

end Arguments

end BackendFuzz
