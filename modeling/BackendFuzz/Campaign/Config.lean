import BackendFuzz.Backend
import BackendFuzz.Given
import BackendFuzz.Json.Misuse
import BackendFuzz.Path

/-!
# Campaign configuration

The knobs of one campaign.
-/

namespace BackendFuzz

structure CampaignConfig where
  seedFiles : List Path
  rulesPath : Option (Given Path) := none
  versions : List String := []
  compilerSettings : Option Fields := none
  rewriteDepth : Int := 1
  /-- Without a number, a campaign with a time limit goes on until then, and any other is one test. -/
  testCount : Option Int := none
  testFunction : Option (Given String) := none
  withEof : Bool := false
  saveVariants : Bool := false
  verbosity : Given Int := .value 0
  timeLimitMs : Option Int := none
  outputDirectory : Given Path := .value (Path.ofText "fuzzer-results")
  randomSeed : Option (Given Int) := none

namespace CampaignConfig

/-- The version that the seeds are parsed with: the first one. -/
def compilerVersion (c : CampaignConfig) : Except Misuse String :=
  match c.versions with
  | v :: _ => .ok v
  | [] => .error .outOfRange

/-- The stem of the first seed file, which names all output files. -/
def baseName (c : CampaignConfig) : Except Misuse String :=
  match c.seedFiles with
  | p :: _ => .ok p.stem
  | [] => .error .outOfRange

def testLimit (c : CampaignConfig) : Option Int :=
  match c.testCount with
  | some n => some n
  | none => if c.timeLimitMs.isSome then none else some 1

def showsSources (c : CampaignConfig) : Bool :=
  match c.verbosity with
  | .value n => 2 ≤ n
  | .nothing => false

end CampaignConfig

end BackendFuzz
