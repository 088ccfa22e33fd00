import BackendFuzz.Text.Letter

/-!
# Lower case

Full lower-casing: each capital goes to its partner, the dotted capital I to
two characters, and a capital sigma to the form for the end of a word when a
cased letter stands before it and none after it, marks not counted.
-/

namespace BackendFuzz.Text

/-- Whether the first character that is not skipped is a cased letter. -/
def meetsCased (cs : List Char) : Bool :=
  match cs.dropWhile isCaseIgnorable with
  | [] => false
  | c :: _ => isCased c

/-- Lower case of one character between what comes before it (nearest first) and after it. -/
def lowerBetween (before : List Char) (c : Char) (after : List Char) : List Char :=
  if c = 'Σ' then [if meetsCased before && !meetsCased after then 'ς' else 'σ']
  else if c = 'İ' then ['i', '\u0307']
  else [lowerPartner c]

def lowerFrom (before : List Char) : List Char → List Char
  | [] => []
  | c :: after => lowerBetween before c after ++ lowerFrom (c :: before) after

def lower (cs : List Char) : List Char := lowerFrom [] cs

end BackendFuzz.Text
