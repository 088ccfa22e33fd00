import BackendFuzz.Text.Quoted

/-!
# Words

Whole numbers as 256-bit words in two's complement, in hexadecimal.
-/

namespace BackendFuzz

-- The same instance whatever a module that imports this one adds.
attribute [local instance(high)] instPowNat

def wordBits : Nat := 256

def encodeWord (value : Int) : String :=
  String.ofList (Text.hexDigits 64 (value % (2 ^ wordBits : Nat)).toNat)

end BackendFuzz
