import BackendFuzz.CommandLine.Configuration
import BackendFuzz.Proofs.Campaign.Tools

/-!
# Campaigns that are set up

A campaign that is built from a configuration works on the real tools, has a
planner if it has a function to test, and names its results file so that no
source of a variant has the same name.
-/

namespace BackendFuzz

open Session

/-! ## Accepted arguments -/

/-- What a configuration owes to the arguments that it was made from. -/
structure Accepted (a : Arguments) (default : String) (config : CampaignConfig) : Prop where
  testCount : ∀ n, config.testCount = some n → 1 ≤ n
  versions : config.versions = resolveVersions a.compilerVersions a.testEof default
  rulesPath : config.rulesPath = a.rewrites
  compilerSettings : readCompilerSettings a.compilerSettings = .ok config.compilerSettings

/-- A number that is refused under a condition, if it is given: what follows is done without it. -/
theorem checked_inv {α : Type} {number : Option Int} {bad : Int → Prop} [DecidablePred bad]
    {fault : Int → Fault} {rest : Except Fault α} {a : α}
    (h : (match number with
      | some n => if bad n then throw (fault n) >>= fun (_ : Unit) => rest else rest
      | _ => rest) = .ok a) : (∀ n, number = some n → ¬ bad n) ∧ rest = .ok a := by
  cases number with
  | none => exact ⟨nofun, h⟩
  | some n =>
    by_cases hbad : bad n
    · simp only [hbad, ↓reduceIte] at h
      cases h
    · simp only [hbad, ↓reduceIte] at h
      exact ⟨fun _ hn => Option.some.inj hn ▸ hbad, h⟩

theorem accepted_of_configure {a : Arguments} {default : String} {config : CampaignConfig}
    (h : configure a default = .ok config) : Accepted a default config := by
  unfold configure at h
  dsimp only at h
  split at h
  · cases h
  split at h
  · cases h
  obtain ⟨depth, -, h⟩ := bind_ok_inv h
  split at h
  · cases h
  obtain ⟨count, -, h⟩ := bind_ok_inv h
  obtain ⟨hcount, h⟩ := checked_inv h
  obtain ⟨limit, -, h⟩ := bind_ok_inv h
  obtain ⟨-, h⟩ := checked_inv h
  obtain ⟨settings, hsettings, h⟩ := bind_ok_inv h
  cases h
  exact ⟨fun n hn => Int.not_lt.mp (hcount n hn), rfl, rfl, hsettings⟩

/-! ## Tools -/

theorem Generator.yields_generate {g : Generator} (hg : g.selector = none)
    (seeds : List SyntaxTree) (index : Int) :
    (g.generate seeds index).Yields fun v => v.index = index := by
  unfold generate
  simp only [hg]
  split
  · exact yields_bind_of (yields_throw _) fun (_ : PUnit) (h : False) => h.elim
  · refine yields_bind fun seed => ?_
    split
    · exact yields_pure rfl
    · exact yields_bind fun _ => yields_bind fun _ => yields_bind fun _ => yields_pure rfl

theorem Generator.make_selector {settings : Settings} {rules : RuleSet} {depth : Int}
    {g : Generator} (h : Generator.make settings rules depth none = .ok g) : g.selector = none := by
  unfold Generator.make at h
  split at h
  · cases h
  · split at h <;> cases h
    rfl

namespace Campaign

structure Equipped (c : Campaign) (settings : Settings) : Prop where
  generates : ∃ (g : Generator) (seeds : List SyntaxTree), g.selector = none ∧
    c.tools.generate = g.generate seeds
  compiles : ∃ user, c.tools.render = Dispatcher.render ⟨settings, user⟩ ∧
    c.tools.compile = Dispatcher.compile ⟨settings, user⟩
  executes : c.tools.execute = Machine.execute settings
  results : ∃ tail, c.resultsPath = c.directory.child (c.baseName ++ ".results." ++ tail)

theorem yields_checkedPlanner {config : CampaignConfig} (hf : config.testFunction.isSome)
    (settings : Settings) (version : String) (seeds : List SyntaxTree) :
    (checkedPlanner config settings version seeds).Yields fun planner => planner.isSome := by
  obtain ⟨function, hf⟩ := Option.isSome_iff_exists.mp hf
  unfold checkedPlanner
  simp only [hf]
  refine yields_bind fun _ => yields_bind fun available => ?_
  split
  · exact yields_bind_of (yields_throw _) fun (_ : Unit) (h : False) => h.elim
  · exact yields_pure rfl

theorem yields_make {config : CampaignConfig} {seedCount : Nat} {tools : Toolchain} :
    (make config seedCount tools).Yields fun c => c.tools = tools ∧
      ∃ tail, c.resultsPath = c.directory.child (c.baseName ++ ".results." ++ tail) := by
  unfold make
  split
  · exact yields_throw _
  · refine yields_bind fun outside => yields_bind fun baseName => yields_bind fun directory =>
      yields_pure ⟨rfl, toString outside.now.stamp ++ "-" ++ toString outside.processId ++ ".jsonl", ?_⟩
    simp [String.append_assoc, toString]

theorem yields_build_equipped (config : CampaignConfig) (settings : Settings) :
    (build config settings).Yields fun c => c.Equipped settings ∧
      (config.testFunction.isSome → ∃ planner, c.tools.planner = some planner) := by
  have hplanner : ∀ version seeds, (checkedPlanner config settings version seeds).Yields
      fun planner => config.testFunction.isSome → planner.isSome :=
    fun version seeds o b planner h hf => yields_checkedPlanner hf settings version seeds o b planner h
  refine yields_bind fun _ => yields_bind fun rules => yields_bind fun version =>
    yields_bind fun seeds => yields_bind_of (hplanner version seeds) fun planner hp => ?_
  refine yields_bind fun _ => yields_bind fun _ =>
    yields_bind_of (yields_ofExcept fun _ => Generator.make_selector) fun g hg => ?_
  refine fun o b c hc => ?_
  obtain ⟨htools, hresults⟩ := yields_make o b c hc
  refine ⟨⟨⟨g, seeds, hg, by rw [htools]⟩, ⟨config.compilerSettings, by rw [htools], by rw [htools]⟩,
    by rw [htools], hresults⟩, fun hf => ?_⟩
  obtain ⟨planner, rfl⟩ := Option.isSome_iff_exists.mp (hp hf)
  exact ⟨planner, by rw [htools]⟩

end Campaign

end BackendFuzz
