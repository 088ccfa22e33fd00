import BackendFuzz.Text.Quoted

/-!
# UTF-8

Bytes are a text if they are its UTF-8 form. For bytes that are none, the first
fault: the bytes concerned and what is wrong with them. A text has a form in
bytes unless surrogates stand in it on their own.
-/

namespace BackendFuzz.Text

inductive Utf8Cause where
  | startByte
  | continuationByte
  | endOfData
  deriving DecidableEq, Repr

/-- The bytes from `first` to `last` are no part of a text; `byte` is the first of them. -/
structure Utf8Fault where
  cause : Utf8Cause
  byte : UInt8
  first : Nat
  last : Nat
  deriving DecidableEq, Repr

def Utf8Cause.message : Utf8Cause → String
  | startByte => "invalid start byte"
  | continuationByte => "invalid continuation byte"
  | endOfData => "unexpected end of data"

def Utf8Fault.message (f : Utf8Fault) : String :=
  let place :=
    if f.first = f.last then s!"byte 0x{String.ofList (hexDigits 2 f.byte.toNat)} in position {f.first}"
    else s!"bytes in position {f.first}-{f.last}"
  s!"'utf-8' codec can't decode {place}: {f.cause.message}"

/-- The second bytes that may follow a first byte, and how many bytes follow in all. -/
def sequenceAfter (b : Nat) : Option (Nat × Nat × Nat) :=
  if b < 0xC2 then none
  else if b < 0xE0 then some (0x80, 0xBF, 1)
  else if b = 0xE0 then some (0xA0, 0xBF, 2)
  else if b = 0xED then some (0x80, 0x9F, 2)
  else if b < 0xF0 then some (0x80, 0xBF, 2)
  else if b = 0xF0 then some (0x90, 0xBF, 3)
  else if b < 0xF4 then some (0x80, 0xBF, 3)
  else if b = 0xF4 then some (0x80, 0x8F, 3)
  else none

/-- How many of the `wanted` bytes after a first byte are there: all, or less with what is wrong. -/
def continuation (low high : Nat) : Nat → List UInt8 → Nat × Option Utf8Cause
  | 0, _ => (0, none)
  | _ + 1, [] => (0, some .endOfData)
  | wanted + 1, b :: rest =>
    if low ≤ b.toNat ∧ b.toNat ≤ high then
      let (n, cause) := continuation 0x80 0xBF wanted rest
      (n + 1, cause)
    else (0, some .continuationByte)

def faultFrom : Nat → Nat → List UInt8 → Utf8Fault
  | 0, position, _ => ⟨.startByte, 0, position, position⟩
  | _ + 1, position, [] => ⟨.endOfData, 0, position, position⟩
  | fuel + 1, position, b :: rest =>
    if b.toNat < 0x80 then faultFrom fuel (position + 1) rest
    else
      match sequenceAfter b.toNat with
      | none => ⟨.startByte, b, position, position⟩
      | some (low, high, wanted) =>
        match continuation low high wanted rest with
        | (n, none) => faultFrom fuel (position + 1 + n) (rest.drop n)
        | (n, some cause) => ⟨cause, b, position, position + n⟩

def decode (bytes : ByteArray) : Except Utf8Fault String :=
  match String.fromUTF8? bytes with
  | some s => .ok (String.ofList (hold s.toList))
  | none => .error (faultFrom (bytes.size + 1) 0 bytes.toList)

/-- The first run of surrogates in a text: the first of them, and where the run starts and ends. -/
structure LoneRun where
  surrogate : Nat
  first : Nat
  last : Nat
  deriving DecidableEq, Repr

def LoneRun.message (r : LoneRun) : String :=
  let place :=
    if r.first = r.last then
      s!"character '{String.ofList (numericEscape r.surrogate)}' in position {r.first}"
    else s!"characters in position {r.first}-{r.last}"
  s!"'utf-8' codec can't encode {place}: surrogates not allowed"

def loneRun? (allowed : Nat → Bool) (position : Nat) : List Nat → Option LoneRun
  | [] => none
  | n :: rest =>
    if isSurrogate n && !allowed n then
      some ⟨n, position, position + (rest.takeWhile isSurrogate).length⟩
    else loneRun? allowed (position + 1) rest

def encode (s : String) : Except LoneRun ByteArray :=
  let ns := points s.toList
  match loneRun? (fun _ => false) 0 ns with
  | some run => .error run
  | none => .ok (String.ofList (ns.map Char.ofNat)).toUTF8

def byteCount (n : Nat) : Nat :=
  if n < 0x80 then 1 else if n < 0x800 then 2 else if n < 0x10000 then 3 else 4

def unifyLines : List Char → List Char
  | [] => []
  | '\r' :: '\n' :: rest => '\n' :: unifyLines rest
  | '\r' :: rest => '\n' :: unifyLines rest
  | c :: rest => c :: unifyLines rest

end BackendFuzz.Text
