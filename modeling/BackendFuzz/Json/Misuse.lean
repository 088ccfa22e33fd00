import BackendFuzz.Json.Literal
import BackendFuzz.Number.Whole

/-!
# Values of the wrong shape

The replies of other programs are JSON of any shape. Each way to look into a
value says what it refuses, and each refusal has its message.
-/

namespace BackendFuzz

/-- What a value was asked for that its shape does not have. -/
inductive Misuse where
  /-- A named operation of another shape. -/
  | feature (kind name : String)
  /-- Its items. -/
  | items (kind : String)
  /-- Whether it holds something. -/
  | membership (kind : String)
  /-- A size. -/
  | size (kind : String)
  /-- An entry by name, of a value without entries, a text, or an array. -/
  | entry (kind : String)
  | entryOfText
  | entryOfArray
  /-- An entry that is not there. -/
  | missing (name : String)
  /-- A place in a table, for a key that has none. -/
  | key (kind : String)
  /-- A pair of a table: a number, or items other than two. -/
  | pair (index : Nat)
  | pairSize (index count : Nat)
  /-- A text among texts to be joined. -/
  | joined (index : Nat) (kind : String)
  /-- A text to be written to an open file, or as a whole file. -/
  | written (kind : String)
  | content (kind : String)
  /-- A number of reasonable length. -/
  | digits (count : Nat)
  /-- An item by an index that is out of range. -/
  | outOfRange
  /-- An order, beside a whole number. -/
  | order (relation kind : String)
  /-- A path to go on from. -/
  | directory (kind : String)
  /-- A JSON text. -/
  | jsonText (kind : String)
  /-- A number for a directive of a template. -/
  | operand (need kind : String)
  /-- A single character for a directive. -/
  | characterNeeded
  /-- Named arguments. -/
  | mappingNeeded
  /-- A number for a star. -/
  | starNeeded
  | tooFewArguments
  | tooManyArguments
  deriving DecidableEq, Repr

def Misuse.message : Misuse → String
  | feature kind name => s!"'{kind}' object has no attribute '{name}'"
  | items kind => s!"'{kind}' object is not iterable"
  | membership kind => s!"argument of type '{kind}' is not iterable"
  | size kind => s!"object of type '{kind}' has no len()"
  | entry kind => s!"'{kind}' object is not subscriptable"
  | entryOfText => "string indices must be integers, not 'str'"
  | entryOfArray => "list indices must be integers or slices, not str"
  | missing name => Text.quote name
  | key kind => s!"unhashable type: '{kind}'"
  | pair index => s!"cannot convert dictionary update sequence element #{index} to a sequence"
  | pairSize index count =>
    s!"dictionary update sequence element #{index} has length {count}; 2 is required"
  | joined index kind => s!"sequence item {index}: expected str instance, {kind} found"
  | written "NoneType" => "write() argument must be str, not None"
  | written kind => s!"write() argument must be str, not {kind}"
  | content kind => s!"data must be str, not {kind}"
  | digits count =>
    s!"Exceeds the limit ({maxDigits} digits) for integer string conversion: value has {count} " ++
      "digits; use sys.set_int_max_str_digits() to increase the limit"
  | outOfRange => "list index out of range"
  | order relation kind => s!"'{relation}' not supported between instances of '{kind}' and 'int'"
  | directory kind => s!"unsupported operand type(s) for /: '{kind}' and 'str'"
  | jsonText kind => s!"the JSON object must be str, bytes or bytearray, not {kind}"
  | operand need kind => s!"{need}, not {kind}"
  | characterNeeded => "%c requires int or char"
  | mappingNeeded => "format requires a mapping"
  | starNeeded => "* wants int"
  | tooFewArguments => "not enough arguments for format string"
  | tooManyArguments => "not all arguments converted during string formatting"

def Misuse.kind : Misuse → String
  | feature _ _ => "AttributeError"
  | missing _ => "KeyError"
  | pairSize _ _ => "ValueError"
  | digits _ => "ValueError"
  | outOfRange => "IndexError"
  | _ => "TypeError"

namespace Json

def kind : Json → String
  | null => "NoneType"
  | bool _ => "bool"
  | int _ => "int"
  | real _ => "float"
  | text _ => "str"
  | array _ => "list"
  | object _ => "dict"

/-- The fields of an object; `name` is the operation that asks for them. -/
def fieldsFor (name : String) : Json → Except Misuse Fields
  | object fields => .ok fields
  | v => .error (.feature v.kind name)

def field? (j : Json) (name : String) : Except Misuse (Option Json) := do
  return Fields.get? (← j.fieldsFor "get") name

def fieldOr (j : Json) (name : String) (default : Json) : Except Misuse Json := do
  return (← j.field? name).getD default

/-- A field of an object; an absent one is null. -/
def field (j : Json) (name : String) : Except Misuse Json := j.fieldOr name null

/-- The items of a value: of an array, the characters of a text, the names of an object. -/
def items : Json → Except Misuse (List Json)
  | array xs => .ok xs
  | text s => .ok ((Text.points s.toList).map fun n => text (String.ofList (Text.held n)))
  | object fields => .ok (fields.map fun f => text f.1)
  | v => .error (.items v.kind)

def occursIn (part : List Char) : List Char → Bool
  | [] => part.isEmpty
  | c :: rest => part.isPrefixOf (c :: rest) || occursIn part rest

/-- Whether a name is a field of an object, an item of an array, or part of a text. -/
def has (j : Json) (name : String) : Except Misuse Bool :=
  match j with
  | object fields => .ok (Fields.get? fields name).isSome
  | array xs => .ok (xs.any (·.isText name))
  | text s => .ok (occursIn name.toList s.toList)
  | v => .error (.membership v.kind)

def entry (j : Json) (name : String) : Except Misuse Json :=
  match j with
  | object fields =>
    match Fields.get? fields name with
    | some v => .ok v
    | none => .error (.missing name)
  | text _ => .error .entryOfText
  | array _ => .error .entryOfArray
  | v => .error (.entry v.kind)

def size : Json → Except Misuse Nat
  | array xs => .ok xs.length
  | text s => .ok (Text.length s)
  | object fields => .ok fields.length
  | v => .error (.size v.kind)

def checkKey : Json → Except Misuse Unit
  | array items => .error (.key (array items).kind)
  | object fields => .error (.key (object fields).kind)
  | _ => .ok ()

def joinLines (lines : List Json) : Except Misuse String := do
  let texts ← lines.zipIdx.mapM fun (l, i) =>
    match l with
    | text s => .ok s
    | v => .error (.joined i v.kind)
  return "\n".intercalate texts

end Json

end BackendFuzz
