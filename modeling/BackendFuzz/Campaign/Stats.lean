import BackendFuzz.Divergence.Record

/-!
# Campaign statistics

Counters of a campaign: tests, failures by kind and by tag, and variants that
no backend could compile.
-/

namespace BackendFuzz

structure CampaignStats where
  tests : Nat := 0
  compilation : Nat := 0
  fuzzing : Nat := 0
  skipped : Nat := 0
  timeLimitReached : Bool := false
  byTag : List (String × Nat) := []
  deriving DecidableEq, Repr

namespace CampaignStats

def countTag (tag : String) : List (String × Nat) → List (String × Nat)
  | [] => [(tag, 1)]
  | (t, n) :: rest => if t = tag then (t, n + 1) :: rest else (t, n) :: countTag tag rest

def addCategory (s : CampaignStats) (c : DivergenceCategory) : CampaignStats :=
  let s := if c.isCompilation then { s with compilation := s.compilation + 1 }
    else { s with fuzzing := s.fuzzing + 1 }
  { s with byTag := countTag c.tag s.byTag }

def addTest (s : CampaignStats) (categories : List DivergenceCategory) : CampaignStats :=
  categories.foldl addCategory { s with tests := s.tests + 1 }

def record (s : CampaignStats) (records : List DivergenceRecord) : CampaignStats :=
  s.addTest (records.map (·.category))

def insertTag (entry : String × Nat) : List (String × Nat) → List (String × Nat)
  | [] => [entry]
  | e :: rest => if entry.1 < e.1 then entry :: e :: rest else e :: insertTag entry rest

def sortedTags (s : CampaignStats) : List (String × Nat) := s.byTag.foldr insertTag []

def summary (s : CampaignStats) : String :=
  "\n".intercalate ([
    s!"Tests performed: {s.tests}",
    s!"Compilation failures encountered: {s.compilation}",
    s!"Fuzzing failures encountered: {s.fuzzing}"] ++
    s.sortedTags.map fun (tag, count) => s!"  {tag}: {count}")

end CampaignStats

end BackendFuzz
