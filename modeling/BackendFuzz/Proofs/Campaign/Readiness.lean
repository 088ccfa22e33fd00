import BackendFuzz.Proofs.Campaign.Accounts
import BackendFuzz.Proofs.Campaign.Calls
import BackendFuzz.Proofs.Campaign.MissingCompilers
import BackendFuzz.Proofs.Campaign.Variation

/-!
# Problems of configuration in a run

Building a campaign finds what is wrong with rules, seeds, target function and
the compiler of the seeds. Without rewriting, one problem is left for the run to
come upon: the compiler of another backend that is neither there nor may be
installed.
-/

namespace BackendFuzz

open Session

/-! ## What is checked beforehand -/

theorem Session.yields_mapM_length {α β : Type} (f : α → Session β) (l : List α) :
    (l.mapM f).Yields fun bs => bs.length = l.length := by
  induction l with
  | nil => exact yields_pure rfl
  | cons a l ih =>
    rw [List.mapM_cons]
    refine yields_bind fun b => yields_bind_of ih fun bs hbs => yields_pure ?_
    simp [hbs]

theorem Session.yields_forM_ofExcept {α : Type} (e : α → Except Fault Unit) (l : List α) :
    (l.forM fun a => ofExcept (e a)).Yields fun _ => ∀ a ∈ l, e a = .ok () := by
  induction l with
  | nil => exact yields_pure (List.forall_mem_nil _)
  | cons a l ih =>
    have ha : (ofExcept (e a)).Yields fun _ => e a = .ok () := yields_ofExcept fun _ h => h
    refine yields_bind_of ha fun _ ha => fun o b u hu => ?_
    exact List.forall_mem_cons.mpr ⟨ha, ih o b u hu⟩

namespace Campaign

/-- The campaign tests its seeds as they are, of which there are some, and the function to test has
been looked up in each. -/
structure Prechecked (c : Campaign) (seeds : List SyntaxTree) : Prop where
  nonempty : seeds ≠ []
  generates : ∃ g : Generator, g.selector = none ∧ g.depth = 0 ∧
    c.tools.generate = g.generate seeds
  checked : ∀ planner, c.tools.planner = some planner →
    ∀ seed ∈ seeds, planner.check seed = .ok ()

theorem yields_checkedPlanner_checked (config : CampaignConfig) (settings : Settings)
    (version : String) (seeds : List SyntaxTree) :
    (checkedPlanner config settings version seeds).Yields fun planner? =>
      ∀ planner, planner? = some planner → ∀ seed ∈ seeds, planner.check seed = .ok () := by
  unfold checkedPlanner
  split
  · exact yields_pure fun planner h => by cases h
  · refine yields_bind_of (yields_forM_ofExcept _ seeds) fun _ hchecked => ?_
    refine yields_bind fun available => ?_
    split
    · exact yields_bind_of (yields_throw _) fun (_ : Unit) (h : False) => h.elim
    · apply yields_pure
      rintro planner ⟨⟩
      exact hchecked

theorem yields_make_named {config : CampaignConfig} {seedCount : Nat} {tools : Toolchain} :
    (make config seedCount tools).Yields fun c => c.tools = tools ∧ config.seedFiles ≠ [] := by
  unfold make
  split
  · exact yields_throw _
  · refine yields_bind fun outside => ?_
    have hname : (looking config.baseName).Yields fun _ => config.seedFiles ≠ [] := by
      apply yields_looking
      intro name hname hnone
      rw [CampaignConfig.baseName, hnone] at hname
      cases hname
    refine yields_bind_of hname fun baseName hnonempty => yields_bind fun directory => ?_
    exact yields_pure ⟨rfl, hnonempty⟩

theorem yields_build_prechecked {config : CampaignConfig} (hdepth : config.rewriteDepth = 0)
    (settings : Settings) :
    (build config settings).Yields fun c => ∃ seeds, c.Prechecked seeds := by
  have hseeds : ∀ version, (loadSeeds settings config.seedFiles version
      config.compilerSettings).Yields fun seeds => seeds.length = config.seedFiles.length :=
    fun version => yields_bind fun _ => yields_mapM_length _ _
  refine yields_bind fun _ => yields_bind fun rules => yields_bind fun version =>
    yields_bind_of (hseeds version) fun seeds hlength =>
      yields_bind_of (yields_checkedPlanner_checked config settings version seeds)
        fun planner hchecked => yields_bind fun _ => yields_bind fun _ => ?_
  have hgenerator : (ofExcept (Generator.make settings rules config.rewriteDepth none)).Yields
      fun g => g.selector = none ∧ g.depth = 0 := by
    apply yields_ofExcept
    intro g hg
    refine ⟨Generator.make_selector hg, ?_⟩
    unfold Generator.make at hg
    split at hg
    · cases hg
    · split at hg <;> cases hg
      exact hdepth
  refine yields_bind_of hgenerator fun g hg => ?_
  intro o b c hc
  obtain ⟨htools, hnonempty⟩ := yields_make_named o b c hc
  refine ⟨seeds, ?_, ⟨g, hg.1, hg.2, by rw [htools]⟩, by rw [htools]; exact hchecked⟩
  intro hnone
  rw [hnone] at hlength
  exact hnonempty (List.length_eq_zero_iff.mp hlength.symm)

/-! ## Sources and verdicts -/

section
variable {o : Outside} {c : Campaign} {variant : Variant} {K : Fault → Prop}
  (hK : ∀ fault, fault.isConfiguration = false → K fault)
include hK

theorem within_keepSource (hrender : (c.renderFirst variant).FaultsWithin K o) (wanted : Bool)
    (index : Int) : (c.keepSource wanted index variant).FaultsWithin K o := by
  unfold keepSource
  split
  · apply within_bind hrender
    intro source
    exact within_bind (FaultsWithin.mono (configured_saveVariant _ source) hK) fun _ =>
      within_pure _
  · exact within_pure _

theorem within_present (hrender : (c.renderFirst variant).FaultsWithin K o) :
    (c.present variant).FaultsWithin K o := by
  rw [present_eq]
  apply within_bind
  · unfold showSource
    split
    · refine within_bind (within_modify _) fun _ => ?_
      exact within_bind hrender fun _ => within_modify _
    · exact within_pure _
  · intro _
    exact within_keepSource hK hrender _ _

theorem within_judge (index : Int) (plan : Option CallPlan) (results : List BackendResult) :
    (c.judge index plan results).FaultsWithin K o := by
  apply within_bind (FaultsWithin.mono (configured_looking _) hK)
  intro records
  exact within_bind (within_forM (fun _ => within_modify _) _) fun _ => within_pure _

end

/-! ## Tests -/

section
variable {o : Outside} {settings : Settings} {c : Campaign} {variant : Variant} {b : Bench}
  {fault : Fault}

/-- A backend has its turn in a test once all before it have had theirs. -/
def ComesTo (c : Campaign) (o : Outside) (index : Int) (b : Bench) (variant : Variant)
    (backend : Backend) (b₁ : Bench) : Prop :=
  ∃ prepared plan planned earlier later results,
    (c.prepare index).run o b = (.ok variant, prepared) ∧
    (c.planFor variant).run o prepared = (.ok plan, planned) ∧
    c.backends = earlier ++ backend :: later ∧
    (earlier.mapM (c.tryBackend variant plan)).run o planned = (.ok results, b₁)

def MeetsMissing (c : Campaign) (o : Outside) (settings : Settings) (index : Int) (b : Bench)
    (version : String) : Prop :=
  settings.solcInstallMissing = false ∧ ∃ variant b₁,
    c.ComesTo o index b variant ⟨version⟩ b₁ ∧ c.Lacks o variant ⟨version⟩ b₁

variable (hc : c.Equipped settings) (ho : o.RendersAll settings)
include hc ho

theorem tryBackends_endsWith_iff (hf : fault.isConfiguration = true) {plan : Option CallPlan} :
    (c.tryBackends variant plan).EndsWith o b fault ↔ settings.solcInstallMissing = false ∧
      ∃ earlier backend later results b₁, c.backends = earlier ++ backend :: later ∧
        (earlier.mapM (c.tryBackend variant plan)).run o b = (.ok results, b₁) ∧
        c.Lacks o variant backend b₁ ∧
        fault = .configuration (.compilerMissing backend.version) := by
  unfold tryBackends
  rw [endsWith_mapM_iff]
  constructor
  · rintro ⟨earlier, backend, later, results, b₁, hbackends, hearlier, hends⟩
    obtain ⟨hs, hlacks, hfault⟩ := (tryBackend_endsWith_iff hc ho hf).mp hends
    exact ⟨hs, earlier, backend, later, results, b₁, hbackends, hearlier, hlacks, hfault⟩
  · rintro ⟨hs, earlier, backend, later, results, b₁, hbackends, hearlier, hlacks, hfault⟩
    refine ⟨earlier, backend, later, results, b₁, hbackends, hearlier, ?_⟩
    exact (tryBackend_endsWith_iff hc ho hf).mpr ⟨hs, hlacks, hfault⟩

theorem configured_renderFirst (variant : Variant) : (c.renderFirst variant).Configured o := by
  obtain ⟨user, hrender, -⟩ := hc.compiles
  unfold renderFirst
  rw [hrender]
  exact Dispatcher.configured_render ho user variant.tree c.first

theorem configured_present (variant : Variant) : (c.present variant).Configured o :=
  within_present (fun _ => id) (configured_renderFirst hc ho variant)

theorem configured_settle (index : Int) (variant : Variant) (plan : Option CallPlan)
    (results : List BackendResult) : (c.settle index variant plan results).Configured o := by
  apply configured_bind (within_judge (fun _ => id) index plan results)
  intro report
  have hkeep : (c.keepSource (c.keptLate report) index variant).Configured o :=
    within_keepSource (fun _ => id) (configured_renderFirst hc ho variant) _ index
  exact configured_bind hkeep fun _ => configured_pure _

/-! ### Seeds as they are -/

variable {seeds : List SyntaxTree} (hp : c.Prechecked seeds)
include hp

omit hc ho in
theorem Prechecked.generate_eq (index : Int) : c.tools.generate index = (do
    let seed ← pick seeds
    return { index, tree := seed, seed }) := by
  obtain ⟨g, hselector, hdepth, hgenerate⟩ := hp.generates
  rw [hgenerate]
  unfold Generator.generate
  simp [hselector, hdepth, hp.nonempty]

omit hc ho in
theorem yields_generate_seed (index : Int) :
    (c.tools.generate index).Yields fun variant => variant.tree ∈ seeds := by
  rw [hp.generate_eq]
  have hpick : (pick seeds).Yields (· ∈ seeds) := by
    intro o b seed hseed
    rcases hrun : (pick seeds).run o b with ⟨r, b'⟩
    rw [hrun] at hseed
    obtain rfl : r = .ok seed := hseed
    exact itemAt?_mem (run_pick_inv hrun).1
  exact yields_bind_of hpick fun seed hseed => yields_pure hseed

omit hc ho in
theorem configured_generate (index : Int) : (c.tools.generate index).Configured o := by
  rw [hp.generate_eq]
  exact configured_bind (configured_pick seeds) fun seed => configured_pure _

omit hc ho in
theorem yields_prepare_seed (index : Int) :
    (c.prepare index).Yields fun variant => variant.tree ∈ seeds := by
  refine yields_bind_of (yields_generate_seed hp index) fun variant hseed => ?_
  exact yields_bind fun _ => yields_pure hseed

theorem configured_prepare (index : Int) : (c.prepare index).Configured o := by
  apply configured_bind (configured_generate hp index)
  intro variant
  exact configured_bind (configured_present hc ho variant) fun _ => configured_pure _

omit hc ho in
theorem configured_planFor {variant : Variant} (h : variant.tree ∈ seeds) :
    (c.planFor variant).Configured o := by
  unfold planFor
  split
  · rename_i planner hplanner
    apply configured_map
    -- The seed has been checked, so all parameters have types and only draws are left.
    have hcheck := hp.checked planner hplanner _ h
    obtain ⟨types, htypes, -⟩ := bind_ok_inv hcheck
    unfold Planner.plan
    rw [htypes]
    apply configured_bind (configured_pure types)
    intro types
    apply configured_bind (configured_mapM _ types)
    · intro values
      exact configured_bind (configured_modify _) fun _ => configured_pure _
    · intro t
      unfold drawInteger
      split
      · apply configured_bind (configured_callBits _)
        intro magnitude
        exact configured_bind (configured_callBits _) fun sign => configured_pure _
      · exact configured_callBits _
  · exact configured_pure _

theorem test_endsWith_iff (hf : fault.isConfiguration = true) (index : Int) :
    (c.test index).EndsWith o b fault ↔ ∃ version, c.MeetsMissing o settings index b version ∧
      fault = .configuration (.compilerMissing version) := by
  have hturns : ∀ variant plan b, (do
      let results ← c.tryBackends variant plan
      c.settle index variant plan results).EndsWith o b fault ↔
        (c.tryBackends variant plan).EndsWith o b fault := by
    intro variant plan b
    apply endsWith_bind_first_iff hf
    intro results
    exact configured_settle hc ho index variant plan results
  rw [test_around_turns, endsWith_bind_later_iff hf (configured_prepare hc ho hp index)]
  constructor
  · intro h
    obtain ⟨variant, prepared, hprepare, h⟩ := h
    have hseed := (yields_prepare_seed hp index).of_run hprepare
    obtain ⟨plan, planned, hplan, h⟩ :=
      (endsWith_bind_later_iff hf (configured_planFor hp hseed)).mp h
    obtain ⟨hs, earlier, backend, later, results, b₁, hbackends, hearlier, hlacks, hfault⟩ :=
      (tryBackends_endsWith_iff hc ho hf).mp ((hturns variant plan planned).mp h)
    refine ⟨backend.version, ⟨hs, variant, b₁, ?_, hlacks⟩, hfault⟩
    exact ⟨prepared, plan, planned, earlier, later, results, hprepare, hplan, hbackends, hearlier⟩
  · intro h
    obtain ⟨version, ⟨hs, variant, b₁, hcomes, hlacks⟩, hfault⟩ := h
    obtain ⟨prepared, plan, planned, earlier, later, results, hprepare, hplan, hbackends,
      hearlier⟩ := hcomes
    have hseed := (yields_prepare_seed hp index).of_run hprepare
    refine ⟨variant, prepared, hprepare, ?_⟩
    apply (endsWith_bind_later_iff hf (configured_planFor hp hseed)).mpr
    refine ⟨plan, planned, hplan, (hturns variant plan planned).mpr ?_⟩
    apply (tryBackends_endsWith_iff hc ho hf).mpr
    exact ⟨hs, earlier, ⟨version⟩, later, results, b₁, hbackends, hearlier, hlacks, hfault⟩

end

/-! ## Runs -/

section
variable {o : Outside} {c : Campaign} {fault : Fault} (hf : fault.isConfiguration = true)
include hf

theorem Iteration.Ran.faulted_iff {it : Iteration} (h : it.Ran c o) :
    it.outcome = .error fault ↔ (c.test it.index).EndsWith o it.before fault := by
  obtain ⟨results, r, hrun, houtcome⟩ := h
  have hrecorded : (c.recordedTest it.index results).EndsWith o it.before fault ↔
      (c.test it.index).EndsWith o it.before fault := by
    apply endsWith_bind_first_iff hf
    intro report
    exact configured_bind (configured_write results report.records) fun _ => configured_pure _
  rw [← hrecorded, houtcome]
  constructor
  · intro h
    cases r with
    | error fault' =>
      cases h
      exact ⟨it.after, hrun⟩
    | ok made => cases h
  · intro h
    obtain ⟨b', h⟩ := h
    cases hrun.symm.trans h
    rfl

omit hf in
/-- The tests end with a fault only if it cuts one of them short. -/
theorem Iterates.faulted {deadline : Option Binary64} {left index : Nat} {results : ResultsFile}
    {stats stats' : CampaignStats} {b b' : Bench} {its : List Iteration} {ending : Ending}
    (h : c.Iterates o deadline left index results stats b its stats' ending b')
    (hending : ending = .faulted fault) : ∃ it ∈ its, it.outcome = .error fault := by
  induction h with
  | spent => cases hending
  | cut h =>
    cases hending
    exact ⟨_, List.mem_singleton_self _, rfl⟩
  | due h hstats ht => cases hending
  | next h hstats ht hrest ih =>
    obtain ⟨it, hit, houtcome⟩ := ih hending
    exact ⟨it, List.mem_cons_of_mem _ hit, houtcome⟩

theorem Proceeds.faulted {budget : Nat} {deadline : Option Binary64} {b b' : Bench}
    {its : List Iteration} {stats : CampaignStats} {ending : Ending}
    (h : c.Proceeds o budget deadline b its stats ending b') (hending : ending = .faulted fault) :
    ∃ it ∈ its, it.outcome = .error fault := by
  cases h with
  | unopened h =>
    cases hending
    exact absurd ⟨_, h⟩ ((configured_opened _).not_endsWith hf)
  | opened h hits => exact hits.faulted hending

omit hf in
theorem unfaulted_deadlineFrom (start : Binary64) (limitMs : Option Int) :
    Unfaulted (deadlineFrom start limitMs) := by
  unfold deadlineFrom
  split
  · exact unfaulted_ok _
  · split
    · exact unfaulted_error rfl
    · exact unfaulted_ok _

omit hf in
theorem configured_conclude (start : Binary64) (stats : CampaignStats) :
    (conclude start stats).Configured o := by
  have hclock : readClock.Configured o := by
    intro b fault b' h
    cases h
  apply configured_bind hclock
  intro now
  dsimp only
  split
  · split
    · exact configured_throw rfl
    · exact configured_throw rfl
  · exact configured_bind (configured_modify _) fun _ => configured_modify _

def EndsRun (fault : Fault) (r : Except Fault CampaignEnd) : Prop :=
  r = .error fault ∨ ∃ stats, r = .ok (.faulted stats fault)

omit hf in
theorem endOf_faulted {stats stats' : CampaignStats} {ending : Ending}
    (h : c.endOf stats ending (.ok ()) = .faulted stats' fault) : ending = .faulted fault := by
  cases ending with
  | spent =>
    dsimp only [endOf] at h
    split at h <;> cases h
  | timeUp => cases h
  | faulted fault' =>
    cases h
    rfl

theorem Runs.cut {budget : Nat} {b b' : Bench} {its : List Iteration}
    {r : Except Fault CampaignEnd} (h : c.Runs o budget b its r b') (hr : EndsRun fault r) :
    ∃ it ∈ its, it.outcome = .error fault := by
  cases h with
  | refused hd =>
    rcases hr with hr | ⟨stats, hr⟩
    · cases hr
      have hnot := unfaulted_deadlineFrom _ _ fault hd
      rw [hf] at hnot
      cases hnot
    · cases hr
  | @made deadline its stats ending b₁ b' r hd h hlast =>
    rcases hr with hr | ⟨stats', hr⟩
    · cases hr
    · cases r with
      | error fault' =>
        cases hr
        exact absurd ⟨_, hlast⟩ ((configured_conclude _ stats).not_endsWith hf)
      | ok last => exact h.faulted hf (endOf_faulted (Except.ok.inj hr))

omit hf in
theorem Runs.ends {budget : Nat} {b b' : Bench} {its : List Iteration}
    {r : Except Fault CampaignEnd} (h : c.Runs o budget b its r b')
    (hclock : ∀ n, (((o.clock n).sub (o.clock b.readings)).mul
      (Binary64.ofInt 1000)).round?.isSome) {it : Iteration} (hit : it ∈ its)
    (houtcome : it.outcome = .error fault) : EndsRun fault r := by
  cases h with
  | refused hd => cases hit
  | @made deadline its stats ending b₁ b' r hd h hlast =>
    -- Only a summary that cannot be made would hide the fault.
    obtain rfl := h.cut_last.2 it hit fault houtcome
    obtain ⟨events, hconclude⟩ := @run_concluded o _ stats b₁ (hclock b₁.readings)
    cases hlast.symm.trans hconclude
    exact Or.inr ⟨stats, rfl⟩

end

/-- Once a campaign without rewriting has been built, its runs end with a fault of configuration
only where a test meets a missing compiler; and there they do, if the clock lets them end. -/
theorem configuration_faults_of_runs {config : CampaignConfig} (hdepth : config.rewriteDepth = 0)
    {settings : Settings} {o : Outside} {b₀ b₁ : Bench} {c : Campaign}
    (hbuild : (build config settings).run o b₀ = (.ok c, b₁)) (ho : o.RendersAll settings)
    (budget : Nat) (b : Bench) : ∃ its r b',
      c.Runs o budget b its r b' ∧ (c.run budget).run o b = (r, b') ∧
      (∀ fault, fault.isConfiguration = true → EndsRun fault r → ∃ it ∈ its, ∃ version,
        c.MeetsMissing o settings it.index it.before version ∧
        fault = .configuration (.compilerMissing version)) ∧
      ∀ it ∈ its, ∀ version, c.MeetsMissing o settings it.index it.before version →
        (∀ n, (((o.clock n).sub (o.clock b.readings)).mul (Binary64.ofInt 1000)).round?.isSome) →
        EndsRun (.configuration (.compilerMissing version)) r := by
  have hc : c.Equipped settings := ((yields_build_equipped config settings).of_run hbuild).1
  obtain ⟨seeds, hp⟩ := (yields_build_prechecked hdepth settings).of_run hbuild
  obtain ⟨its, r, b', hruns, hrun⟩ := run_spec c o budget b
  refine ⟨its, r, b', hruns, hrun, ?_, ?_⟩
  · intro fault hf hends
    obtain ⟨it, hit, houtcome⟩ := hruns.cut hf hends
    have htest := ((hruns.ran it hit).faulted_iff hf).mp houtcome
    exact ⟨it, hit, (test_endsWith_iff hc ho hp hf it.index).mp htest⟩
  · intro it hit version hmeets hclock
    apply hruns.ends hclock hit
    apply ((hruns.ran it hit).faulted_iff rfl).mpr
    exact (test_endsWith_iff hc ho hp rfl it.index).mpr ⟨version, hmeets, rfl⟩

end Campaign

/-! ## A compiler that the first test lacks -/

namespace Sample

def answered : Ended where
  output := "\x7b\"rewrites\":[\"r\"],\"source\":\"x\"\x7d"

def withoutSecond : Outside := { outside with
  engine := fun _ _ => .ended answered
  compiler := fun _ _ => .ended { code := 1 }
  installed := fun _ => ["a"]
  parseSeed := fun _ _ =>
    .output (.object [("sources", .object [("c.sol", .object [("ast", .object [])])])]) }

def withoutInstalling : Settings := { solcInstallMissing := false }

def twoVersions : CampaignConfig where
  seedFiles := [⟨"", ["c.sol"]⟩]
  rulesPath := some (.value ⟨"", ["c.rules"]⟩)
  versions := ["a", "b"]
  rewriteDepth := 0
  outputDirectory := .value ⟨"", []⟩

def benchWithRules : Bench where
  files := ⟨[(⟨false, 0, ["c.sol"]⟩, .file .empty), (⟨false, 0, ["c.rules"]⟩, .file .empty)]⟩

theorem rendersAll_withoutSecond : withoutSecond.RendersAll withoutInstalling := by
  have hparse : Json.parse answered.output =
      .ok (.object [("rewrites", .array [.text "r"]), ("source", .text "x")]) := by
    unfold Json.parse Json.parseWithin
    simp only [answered, String.reduceToList]
    rfl
  have hreply : ∀ command, Engine.checkReply .render command answered =
      .ok (.object [("rewrites", .array [.text "r"]), ("source", .text "x")]) := by
    intro command
    simp only [Engine.checkReply, hparse]
    rfl
  intro tree version b
  obtain ⟨r, hcall⟩ := @Engine.run_call withoutSecond b withoutInstalling answered .render
    [("ast", tree.unit), ("version", .text version)] rfl
  refine ⟨"x", ?_⟩
  unfold Engine.render
  rw [run_bind_ok (hcall.trans (by rw [hreply])), run_looking]
  rfl

/-- The version of the compiler for want of which a run ended. -/
def wanted? : Except Fault Campaign.CampaignEnd → Option String
  | .ok (.faulted _ (.configuration (.compilerMissing version))) => some version
  | _ => none

theorem endsRun_of_wanted {r : Except Fault Campaign.CampaignEnd} {version : String}
    (h : wanted? r = some version) :
    Campaign.EndsRun (.configuration (.compilerMissing version)) r := by
  unfold wanted? at h
  split at h
  · cases h
    exact Or.inr ⟨_, rfl⟩
  · cases h

end Sample

theorem second_compiler_missing_in_run : ∃ c b its it r b' variant b₁,
    (Campaign.build Sample.twoVersions Sample.withoutInstalling).run Sample.withoutSecond
      Sample.benchWithRules = (.ok c, b) ∧
    c.Runs Sample.withoutSecond 0 b its r b' ∧ it ∈ its ∧
    (c.run 0).run Sample.withoutSecond b = (r, b') ∧
    Campaign.EndsRun (.configuration (.compilerMissing "b")) r ∧
    c.ComesTo Sample.withoutSecond it.index it.before variant ⟨"b"⟩ b₁ ∧
    c.Lacks Sample.withoutSecond variant ⟨"b"⟩ b₁ := by
  have hwanted : Sample.wanted? ((do
      let c ← Campaign.build Sample.twoVersions Sample.withoutInstalling
      c.run 0 : Session Campaign.CampaignEnd).run Sample.withoutSecond
        Sample.benchWithRules).1 = some "b" := by
    decide +kernel
  rcases hbuild : (Campaign.build Sample.twoVersions Sample.withoutInstalling).run
    Sample.withoutSecond Sample.benchWithRules with ⟨fault | c, b⟩
  · rw [run_bind_error hbuild] at hwanted
    cases hwanted
  · obtain ⟨its, r, b', hruns, hrun, hfaults, -⟩ :=
      Campaign.configuration_faults_of_runs rfl hbuild Sample.rendersAll_withoutSecond 0 b
    rw [run_bind_ok hbuild, hrun] at hwanted
    have hends := Sample.endsRun_of_wanted hwanted
    obtain ⟨it, hit, version, ⟨-, variant, b₁, hcomes, hlacks⟩, hfault⟩ := hfaults _ rfl hends
    cases hfault
    exact ⟨c, b, its, it, r, b', variant, b₁, rfl, hruns, hit, hrun, hends, hcomes, hlacks⟩

end BackendFuzz
