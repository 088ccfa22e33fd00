import BackendFuzz.Number.Binary64

/-!
# JSON values

Objects keep their fields in the order in which the names first came. Whole
numbers have any size; numbers with a fraction or an exponent are binary.
-/

namespace BackendFuzz

inductive Json where
  | null
  | bool (b : Bool)
  | int (n : Int)
  | real (x : Binary64)
  | text (s : String)
  | array (items : List Json)
  | object (fields : List (String × Json))
  deriving Inhabited, Repr

abbrev Fields := List (String × Json)

namespace Fields

def get? (fields : Fields) (name : String) : Option Json := fields.lookup name

/-- Sets a field: in its place if the name is there, else at the end. -/
def put (fields : Fields) (name : String) (v : Json) : Fields :=
  match fields with
  | [] => [(name, v)]
  | (n, w) :: rest => if n = name then (n, v) :: rest else (n, w) :: put rest name v

/-- Fields in the order of their first mention, each with the value of its last. -/
def ofMentions (mentions : List (String × Json)) : Fields :=
  mentions.foldl (fun fields m => fields.put m.1 m.2) []

theorem get?_put_self (fields : Fields) (name : String) (v : Json) :
    (fields.put name v).get? name = some v := by
  induction fields with
  | nil => simp [put, get?]
  | cons f rest ih =>
    obtain ⟨n, w⟩ := f
    by_cases h : n = name
    · simp [put, get?, h]
    · have h' : ¬ name = n := fun e => h e.symm
      simp only [get?] at ih ⊢
      simp [put, h, List.lookup_cons, beq_eq_false_iff_ne.mpr h', ih]

theorem get?_put_of_ne (fields : Fields) {name other : String} (h : other ≠ name) (v : Json) :
    (fields.put name v).get? other = fields.get? other := by
  induction fields with
  | nil => simp [put, get?, List.lookup_cons, beq_eq_false_iff_ne.mpr h]
  | cons f rest ih =>
    obtain ⟨n, w⟩ := f
    by_cases hn : n = name
    · subst hn; simp [put, get?, List.lookup_cons, beq_eq_false_iff_ne.mpr h]
    · simp only [get?] at ih ⊢
      simp [put, hn, List.lookup_cons, ih]

end Fields

namespace Json

def truthy : Json → Bool
  | null => false
  | bool b => b
  | int n => n != 0
  | real x => !x.isZero
  | text s => !s.isEmpty
  | array items => !items.isEmpty
  | object fields => !fields.isEmpty

def isText (j : Json) (s : String) : Bool :=
  match j with
  | text t => t == s
  | _ => false

def isNull : Json → Bool
  | null => true
  | _ => false

def texts (ss : List String) : Json := array (ss.map text)

end Json

end BackendFuzz
