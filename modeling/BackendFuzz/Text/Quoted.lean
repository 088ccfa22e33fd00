import BackendFuzz.Text.Printable
import BackendFuzz.Text.Surrogate

/-!
# Quoted text

A text between quotes on one line: single quotes, unless it holds one and no
double quote. The backslash, the quote and everything not printable are escaped.
-/

namespace BackendFuzz.Text

def hexDigit (n : Nat) : Char := "0123456789abcdef".toList.getD n '0'

def hexDigits : Nat → Nat → List Char
  | 0, _ => []
  | width + 1, n => hexDigits width (n / 16) ++ [hexDigit (n % 16)]

def numericEscape (n : Nat) : List Char :=
  if n < 0x100 then '\\' :: 'x' :: hexDigits 2 n
  else if n < 0x10000 then '\\' :: 'u' :: hexDigits 4 n
  else '\\' :: 'U' :: hexDigits 8 n

def quoteFor (cs : List Char) : Char :=
  if cs.contains '\x27' && !cs.contains '"' then '"' else '\x27'

def quotedChar (quote c : Char) : List Char :=
  if c = quote || c = '\\' then ['\\', c]
  else if c = '\n' then ['\\', 'n']
  else if c = '\r' then ['\\', 'r']
  else if c = '\t' then ['\\', 't']
  else if isPrintable c then [c]
  else numericEscape c.toNat

/-- A code point between quotes; a surrogate is always escaped. -/
def quotedPoint (quote : Char) (n : Nat) : List Char :=
  if isSurrogate n then numericEscape n else quotedChar quote (Char.ofNat n)

def quoted (cs : List Char) : List Char :=
  let q := quoteFor cs
  q :: (points cs).flatMap (quotedPoint q) ++ [q]

def quote (s : String) : String := String.ofList (quoted s.toList)

end BackendFuzz.Text
