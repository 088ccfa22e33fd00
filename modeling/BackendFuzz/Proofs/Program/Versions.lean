import BackendFuzz.Program
import BackendFuzz.Proofs.Campaign.Compiles
import BackendFuzz.Proofs.Campaign.Requests
import BackendFuzz.Proofs.Rewriting.Rules

/-!
# Versions that sessions name

The version of the object-format build is a flag among versions of compilers. No
request for a standard compiler names it, unless it is the first version of a
session: that one is looked for as it is given, and the seeds are parsed with it.
-/

namespace BackendFuzz

open Session

/-! ## Versions in requests -/

def IsStandard (versions : List String) (version : String) : Prop :=
  version ∈ versions ∧ version ≠ Backend.eofVersion

/-- A version that sources are rendered for: a standard one, or one that a reply tells for the
object-format build. -/
def IsRendered (settings : Settings) (versions : List String) (version : String) : Prop :=
  IsStandard versions version ∨ ∃ reply, CompilerVersion.Tells settings reply version

namespace Request

def Named (settings : Settings) (versions : List String) : Request → Prop
  | .install version => versions.head? = some version ∨ IsStandard versions version
  | .parseSeed _ version _ => versions.head? = some version
  | .compiler command _ _ => ∃ version, IsStandard versions version ∧
      command = [StandardCompiler.executable version, "--standard-json"]
  | .engine _ _ input => ∃ action fields, input = Engine.input action fields ∧
      (action = .render → ∃ unit version, fields = [("ast", unit), ("version", .text version)] ∧
        IsRendered settings versions version)
  | _ => True

def Needs (version : String) (r : Request) : Prop :=
  r = .install version ∨ r.RunsCompiler version

section
variable {settings : Settings} {versions : List String}

theorem Named.needed {r : Request} {version : String} (h : r.Named settings versions)
    (hneeds : r.Needs version) : versions.head? = some version ∨ IsStandard versions version := by
  obtain rfl | ⟨input, paths, rfl⟩ | ⟨timeout, input, rfl⟩ := hneeds
  · exact h
  · exact Or.inl h
  · obtain ⟨version', hstandard, hcommand⟩ := h
    have hexecutable : "/solc/solc-" ++ version = "/solc/solc-" ++ version' :=
      (List.cons.inj hcommand).1
    obtain rfl : version = version' := by simpa [← String.toList_inj] using hexecutable
    exact Or.inr hstandard

theorem named_call {action : RewriteAction} (h : action ≠ .render) (fields : Fields) :
    (Engine.request settings action fields).Named settings versions :=
  ⟨action, fields, rfl, fun hrender => absurd hrender h⟩

theorem named_render {version : String} (h : IsRendered settings versions version) (unit : Json) :
    (Engine.request settings .render [("ast", unit), ("version", .text version)]).Named settings
      versions :=
  ⟨.render, _, rfl, fun _ => ⟨unit, version, rfl, h⟩⟩

end

end Request

theorem CompilerVersion.FirstVersion.dotted {cs version : List Char} (h : FirstVersion cs version) :
    '.' ∈ version := by
  obtain ⟨before, rest, -, ⟨blank, major, minor, patch, more, -, -, -, -, -, -, rfl⟩, -⟩ := h
  simp

theorem not_isRendered_eof {settings : Settings}
    (hdefault : settings.defaultSolcVersion ≠ Backend.eofVersion) (versions : List String) :
    ¬ IsRendered settings versions Backend.eofVersion := by
  rintro (⟨-, hne⟩ | ⟨reply, htells⟩)
  · exact hne rfl
  · generalize hversion : Backend.eofVersion = version at htells
    cases htells with
    | @named ended version hcode hfirst =>
      have hdotted := hfirst.dotted
      rw [← @String.toList_ofList version, ← hversion] at hdotted
      simp [Backend.eofVersion] at hdotted
    | _ => exact hdefault hversion.symm

/-! ## Benches with told versions -/

namespace Bench

/-- All versions that are remembered for a path are those that replies tell. -/
def Informed (settings : Settings) (b : Bench) : Prop :=
  ∀ path version, b.memory.versions.lookup path = some version →
    ∃ reply, CompilerVersion.Tells settings reply version

/-- From an informed bench on, requests name versions of the session, and the bench stays informed. -/
def Advances (settings : Settings) (versions : List String) (b b' : Bench) : Prop :=
  b.Informed settings →
    (∃ more, b'.asked = b.asked ++ more ∧ ∀ r ∈ more, r.Named settings versions) ∧
    b'.Informed settings

instance (settings : Settings) (versions : List String) :
    IsPreorder Bench (Advances settings versions) where
  refl b h := ⟨⟨[], (List.append_nil _).symm, List.forall_mem_nil _⟩, h⟩
  trans b b' b'' h h' hinformed := by
    obtain ⟨⟨more, he, hm⟩, hinformed'⟩ := h hinformed
    obtain ⟨⟨more', he', hm'⟩, hinformed''⟩ := h' hinformed'
    refine ⟨⟨more ++ more', by rw [he', he, List.append_assoc], fun r hr => ?_⟩, hinformed''⟩
    exact (List.mem_append.mp hr).elim (hm r) (hm' r)

variable {settings : Settings} {versions : List String} {b b' : Bench}

theorem advances_of_named {more : List Request} (hasked : b'.asked = b.asked ++ more)
    (hnamed : ∀ r ∈ more, r.Named settings versions)
    (hversions : b'.memory.versions = b.memory.versions) : b.Advances settings versions b' := by
  intro hinformed
  refine ⟨⟨more, hasked, hnamed⟩, ?_⟩
  unfold Informed
  rw [hversions]
  exact hinformed

theorem advances_of_keeps (h : b.Keeps (·.Named settings versions) b') :
    b.Advances settings versions b' := by
  obtain ⟨⟨more, hasked, hnamed⟩, hmemory⟩ := h
  exact advances_of_named hasked hnamed (by rw [hmemory])

end Bench

/-! ## Tools -/

section
variable {settings : Settings} {versions : List String}

theorem advances_query {path : String} {o : Outside} {b b' : Bench} {r : Except Fault String}
    (hinformed : b.Informed settings)
    (h : (CompilerVersion.query settings path).run o b = (r, b')) :
    b.Advances settings versions b' ∧
      ∀ version, r = .ok version → ∃ reply, CompilerVersion.Tells settings reply version := by
  have hrequest : ∀ r ∈ [CompilerVersion.request settings path], r.Named settings versions :=
    List.forall_mem_singleton.mpr trivial
  cases CompilerVersion.queried h with
  | known hknown =>
    refine ⟨refl_of (Bench.Advances settings versions) b, ?_⟩
    rintro version ⟨⟩
    exact hinformed path _ hknown
  | @told version events hunknown htells =>
    refine ⟨fun _ => ⟨⟨_, rfl, hrequest⟩, ?_⟩, ?_⟩
    · intro path' version' hlookup
      rw [List.lookup_append] at hlookup
      cases hold : b.memory.versions.lookup path' with
      | some old =>
        rw [hold] at hlookup
        cases hlookup
        exact hinformed path' _ hold
      | none =>
        rw [hold, Option.none_or, List.lookup_cons] at hlookup
        split at hlookup
        · cases hlookup
          exact ⟨_, htells⟩
        · cases hlookup
    · rintro version' ⟨⟩
      exact ⟨_, htells⟩
  | refused hunknown htells =>
    refine ⟨Bench.advances_of_named rfl hrequest rfl, ?_⟩
    rintro version ⟨⟩

theorem StandardCompiler.Ensured.asked_of_missing {version : String} {o : Outside} {b b' : Bench}
    {r : Except Fault Unit} (h : Ensured settings version o b r b')
    (hunknown : version ∉ b.memory.installed) (hunlisted : version ∉ o.installed b.asked)
    (hallowed : settings.solcInstallMissing = true) :
    b'.asked = b.asked ++ [.installedVersions, .install version] := by
  cases h with
  | known hknown => exact absurd hknown hunknown
  | listed _ hlisted => exact absurd hlisted hunlisted
  | forbidden _ _ hforbidden =>
    rw [hallowed] at hforbidden
    cases hforbidden
  | _ => exact List.append_assoc _ _ _

theorem advances_ensureInstalled {version : String}
    (h : (Request.install version).Named settings versions) :
    (StandardCompiler.ensureInstalled settings version).Leaves
      (Bench.Advances settings versions) := by
  intro o b
  have hlisting : ∀ r ∈ [Request.installedVersions], r.Named settings versions :=
    List.forall_mem_singleton.mpr trivial
  have hboth : ∀ r ∈ [Request.installedVersions, .install version], r.Named settings versions :=
    List.forall_mem_cons.mpr ⟨trivial, List.forall_mem_singleton.mpr h⟩
  rcases hrun : (StandardCompiler.ensureInstalled settings version).run o b with ⟨r, b'⟩
  cases StandardCompiler.ensured hrun with
  | known hknown => exact refl_of (Bench.Advances settings versions) b
  | listed hunknown hlisted => exact Bench.advances_of_named rfl hlisting rfl
  | installed hunknown hunlisted hallowed hinstall =>
    exact Bench.advances_of_named (List.append_assoc _ _ _) hboth rfl
  | forbidden hunknown hunlisted hallowed => exact Bench.advances_of_named rfl hlisting rfl
  | failed hunknown hunlisted hallowed hinstall =>
    exact Bench.advances_of_named (List.append_assoc _ _ _) hboth rfl

variable {d : Dispatcher} {backend : Backend}

theorem isStandard_of_backend (hb : backend.isEof = false) (h : backend.version ∈ versions) :
    IsStandard versions backend.version := by
  refine ⟨h, fun heof => ?_⟩
  rw [(Backend.isEof_iff backend).mpr heof] at hb
  cases hb

theorem advances_render (h : backend.version ∈ versions) (tree : SyntaxTree) :
    (d.render tree backend).Leaves (Bench.Advances d.settings versions) := by
  have hrender : ∀ version, IsRendered d.settings versions version →
      (Engine.render d.settings tree version).Leaves (Bench.Advances d.settings versions) :=
    fun version hversion => (Engine.keeps_render (Request.named_render hversion tree.unit)).mono
      fun _ _ => Bench.advances_of_keeps
  cases hb : backend.isEof with
  | false =>
    rw [Lookup.render_standard hb]
    exact hrender _ (Or.inl (isStandard_of_backend hb h))
  | true =>
    intro o b hinformed
    unfold Dispatcher.render CompilerVersion.resolve
    rw [if_pos hb]
    rcases hquery : (CompilerVersion.query d.settings d.settings.solcPath).run o b with ⟨r, b₁⟩
    obtain ⟨hadvances, htells⟩ := advances_query hinformed hquery
    cases r with
    | error fault =>
      rw [run_bind_error hquery]
      exact hadvances hinformed
    | ok version =>
      rw [run_bind_ok hquery]
      exact trans_of (Bench.Advances d.settings versions) hadvances
        (hrender version (Or.inr (htells version rfl)) o b₁) hinformed

theorem advances_compile (h : backend.version ∈ versions) (variant : Variant) :
    (d.compile variant backend).Leaves (Bench.Advances d.settings versions) := by
  cases hb : backend.isEof with
  | false =>
    have hstandard := isStandard_of_backend hb h
    have hrender := @advances_render versions d backend h variant.tree
    rw [Lookup.render_standard hb] at hrender
    have hcompiler : ∀ source, (StandardCompiler.request d.settings source backend.version
        d.user).Named d.settings versions := fun _ => ⟨backend.version, hstandard, rfl⟩
    rw [Lookup.compile_standard_eq variant hb]
    exact leaves_bind hrender fun source => leaves_bind (leaves_looking _) fun name =>
      leaves_bind (advances_ensureInstalled (Or.inr hstandard)) fun _ =>
        (Lookup.keeps_outcomeThere hcompiler source name).mono fun _ _ => Bench.advances_of_keeps
  | true =>
    refine leaves_bind (advances_render h variant.tree) fun source =>
      leaves_bind (leaves_looking _) fun name => ?_
    simp only [hb, if_true]
    refine leaves_bind ?_ fun output => leaves_looking _
    exact (EofCompiler.keeps_compile (fun _ => trivial) source).mono fun _ _ =>
      Bench.advances_of_keeps

end

/-! ## Building a campaign -/

namespace Campaign

theorem yields_make_backends {config : CampaignConfig} {seedCount : Nat} {tools : Toolchain} :
    (make config seedCount tools).Yields fun c => c.backends = config.versions.map Backend.mk := by
  unfold make
  split
  · exact yields_throw _
  · rename_i first others hversions
    refine yields_bind fun outside => yields_bind fun baseName => yields_bind fun directory =>
      yields_pure ?_
    rw [hversions]
    rfl

theorem yields_build_backends (config : CampaignConfig) (settings : Settings) :
    (build config settings).Yields fun c => c.backends = config.versions.map Backend.mk :=
  yields_bind fun _ => yields_bind fun _ => yields_bind fun _ => yields_bind fun _ =>
    yields_bind fun _ => yields_bind fun _ => yields_bind fun _ => yields_bind fun _ =>
      yields_make_backends

section
variable {K : Request → Prop}

theorem keeps_checkedPlanner (config : CampaignConfig) (settings : Settings) (version : String)
    (seeds : List SyntaxTree) :
    (checkedPlanner config settings version seeds).Leaves (Bench.Keeps K) := by
  unfold checkedPlanner
  split
  · exact leaves_pure _
  · refine leaves_bind (leaves_forM (fun _ => leaves_ofExcept _) _) fun _ =>
      leaves_bind (leaves_bind leaves_read fun _ => leaves_pure _) fun available => ?_
    split
    · exact leaves_throw_bind _ _
    · exact leaves_pure _

theorem keeps_make (config : CampaignConfig) (seedCount : Nat) (tools : Toolchain) :
    (make config seedCount tools).Leaves (Bench.Keeps K) := by
  unfold make
  split
  · exact leaves_throw _
  · exact leaves_bind leaves_read fun _ => leaves_bind (leaves_looking _) fun _ =>
      leaves_bind (leaves_looking _) fun _ => leaves_pure _

end

def buildThere (config : CampaignConfig) (settings : Settings) (rules : RuleSet)
    (version : String) : Session Campaign := do
  let seeds ← config.seedFiles.mapM fun path => loadSeed path version config.compilerSettings
  let planner ← checkedPlanner config settings version seeds
  let seed ← looking (config.randomSeed.mapM (·.expect Misuse.key))
  let _ ← note (.seedGenerator seed)
  let generator ← Session.ofExcept (Generator.make settings rules config.rewriteDepth none)
  let dispatcher : Dispatcher := { settings, user := config.compilerSettings }
  make config seeds.length {
    generate := generator.generate seeds
    render := dispatcher.render
    compile := dispatcher.compile
    execute := Machine.execute settings
    planner }

theorem build_eq (config : CampaignConfig) (settings : Settings) : build config settings = (do
    let rulesPath ← looking (config.rulesPath.mapM (·.expect fun kind => .feature kind "read_text"))
    let rules ← loadRules settings rulesPath
    let version ← looking config.compilerVersion
    StandardCompiler.ensureInstalled settings version
    buildThere config settings rules version) := by
  unfold build loadSeeds
  simp only [bind_assoc]
  rfl

section
variable {config : CampaignConfig} {settings : Settings} {version : String}

theorem advances_buildThere (h : config.versions.head? = some version) (rules : RuleSet) :
    (buildThere config settings rules version).Leaves (Bench.Advances settings config.versions) := by
  have hseed : ∀ path, (loadSeed path version config.compilerSettings).Leaves
      (Bench.Keeps (·.Named settings config.versions)) :=
    fun path => keeps_loadSeed (fun _ _ => h) path _
  have hkeeps : (buildThere config settings rules version).Leaves
      (Bench.Keeps (·.Named settings config.versions)) :=
    leaves_bind (leaves_mapM hseed _) fun seeds =>
      leaves_bind (keeps_checkedPlanner _ _ _ _) fun planner => leaves_bind (leaves_looking _)
        fun seed => leaves_bind (keeps_note trivial) fun _ => leaves_bind (leaves_ofExcept _)
          fun generator => keeps_make _ _ _
  exact hkeeps.mono fun _ _ => Bench.advances_of_keeps

theorem compilerVersion_eq_ok_iff :
    config.compilerVersion = .ok version ↔ config.versions.head? = some version := by
  unfold CampaignConfig.compilerVersion
  cases config.versions <;> simp

theorem advances_loadRules (path : Option Path) (versions : List String) :
    (loadRules settings path).Leaves (Bench.Advances settings versions) :=
  (keeps_loadRules (Request.named_call (by decide)) path).mono fun _ _ => Bench.advances_of_keeps

theorem advances_build (config : CampaignConfig) (settings : Settings) :
    (build config settings).Leaves (Bench.Advances settings config.versions) := by
  rw [build_eq]
  refine leaves_bind (leaves_looking _) fun rulesPath =>
    leaves_bind (advances_loadRules rulesPath _) fun rules => ?_
  have hversion : (looking config.compilerVersion).Yields
      fun version => config.versions.head? = some version :=
    yields_looking fun version => compilerVersion_eq_ok_iff.mp
  exact leaves_bind_of (leaves_looking _) hversion fun version hfirst =>
    leaves_bind (advances_ensureInstalled (Or.inl hfirst)) fun _ => advances_buildThere hfirst rules

/-- A first version that is not there is installed as it is given, unless that is forbidden. -/
theorem build_installs_first {o : Outside} {b b₁ : Bench} {path : Path} {rules : RuleSet}
    (hinformed : b.Informed settings) (hpath : config.rulesPath = some (.value path))
    (hrules : (loadRules settings (some path)).run o b = (.ok rules, b₁))
    (hfirst : config.versions.head? = some version) (hunknown : version ∉ b₁.memory.installed)
    (hunlisted : version ∉ o.installed b₁.asked) (hallowed : settings.solcInstallMissing = true) :
    ∃ more, ((build config settings).run o b).2.asked = b.asked ++ more ∧
      .install version ∈ more := by
  have hlooked : (looking (config.rulesPath.mapM
      (·.expect fun kind => .feature kind "read_text"))).run o b = (.ok (some path), b) := by
    rw [hpath]
    rfl
  have hversion : (looking config.compilerVersion).run o b₁ = (.ok version, b₁) := by
    rw [compilerVersion_eq_ok_iff.mpr hfirst]
    rfl
  obtain ⟨⟨before, hbefore, -⟩, hinformed₁⟩ :=
    (advances_loadRules (some path) config.versions).of_run hrules hinformed
  rcases hensure : (StandardCompiler.ensureInstalled settings version).run o b₁ with ⟨r, b₂⟩
  have hinformed₂ :=
    ((advances_ensureInstalled (Or.inl hfirst)).of_run hensure hinformed₁).2
  have hasked := (StandardCompiler.ensured hensure).asked_of_missing hunknown hunlisted hallowed
  rw [build_eq, run_bind_ok hlooked, run_bind_ok hrules, run_bind_ok hversion]
  cases r with
  | error fault =>
    rw [run_bind_error hensure]
    exact ⟨before ++ [.installedVersions, .install version], by simp [hasked, hbefore], by simp⟩
  | ok _ =>
    rw [run_bind_ok hensure]
    obtain ⟨⟨after, hafter, -⟩, -⟩ := advances_buildThere hfirst rules o b₂ hinformed₂
    exact ⟨before ++ [.installedVersions, .install version] ++ after,
      by simp [hafter, hasked, hbefore], by simp⟩

end

/-! ## Running it -/

theorem toolsLeave_of_equipped {c : Campaign} {settings : Settings} {versions : List String}
    (hc : c.Equipped settings) (hbackends : c.backends = versions.map Backend.mk) :
    c.ToolsLeave (Bench.Advances settings versions) := by
  obtain ⟨⟨g, seeds, hg, hgenerate⟩, ⟨user, hrender, hcompile⟩, hexecute, -⟩ := hc
  have hmem : ∀ backend ∈ c.backends, backend.version ∈ versions := by
    rw [hbackends]
    intro backend hbackend
    obtain ⟨version, hversion, rfl⟩ := List.mem_map.mp hbackend
    exact hversion
  constructor
  · exact fun b b' h => Bench.advances_of_keeps (h.mono fun _ => False.elim)
  · intro index
    rw [hgenerate]
    exact (Generator.keeps_generate (K := Request.Named settings versions) hg (fun _ => trivial)
      (fun _ => trivial) (Request.named_call (by decide)) seeds index).mono
        fun _ _ => Bench.advances_of_keeps
  · intro tree
    rw [hrender]
    exact advances_render (d := ⟨settings, user⟩) (hmem c.first List.mem_cons_self) tree
  · intro variant
    unfold planFor
    split
    · exact leaves_map ((Planner.keeps_plan (fun _ => trivial) _ _).mono
        fun _ _ => Bench.advances_of_keeps) _
    · exact leaves_pure _
  · intro variant backend hbackend
    rw [hcompile]
    exact advances_compile (d := ⟨settings, user⟩) (hmem backend hbackend) variant
  · intro bytecode callData revision
    rw [hexecute]
    exact (Machine.keeps_execute trivial).mono fun _ _ => Bench.advances_of_keeps

end Campaign

/-! ## Sessions -/

theorem resolveVersions_ne_nil (versions : Option (List String)) (withEof : Bool) (default : String) :
    resolveVersions versions withEof default ≠ [] := by
  have hgiven : ∀ chosen : List String, chosen ≠ [] →
      (if withEof && !chosen.contains Backend.eofVersion then chosen ++ [Backend.eofVersion]
        else chosen) ≠ [] := by
    intro chosen hchosen
    split
    · simp
    · exact hchosen
  unfold resolveVersions
  dsimp only
  apply hgiven
  split <;> simp

/-- A session that has been built is the run of its campaign, if there is one. -/
theorem advances_after_build {arguments : Arguments} {settings : Settings} {config : CampaignConfig}
    (hconfig : configure arguments settings.defaultSolcVersion = .ok config) {o : Outside}
    {b b₂ : Bench} {r : Except Fault Campaign}
    (hbuild : (Campaign.build config settings).run o b = (r, b₂)) (budget : Nat) :
    b₂.Advances settings config.versions
      ((Program.campaign arguments settings budget).run o b).2 := by
  unfold Program.campaign
  rw [hconfig, run_bind_ok (run_ofExcept o b _)]
  cases r with
  | error fault =>
    rw [run_bind_error hbuild]
    exact refl_of (Bench.Advances settings config.versions) b₂
  | ok c =>
    rw [run_bind_ok hbuild]
    have hc := ((Campaign.yields_build_equipped config settings).of_run hbuild).1
    have hbackends := (Campaign.yields_build_backends config settings).of_run hbuild
    refine leaves_bind ((Campaign.toolsLeave_of_equipped hc hbackends).run budget) (fun e => ?_) o b₂
    cases e with
    | faulted stats fault => exact leaves_throw fault
    | _ => exact leaves_pure _

/-- A session on an accepted command line names only its own versions and those that replies tell.
The flag of the object-format build reaches no compiler and no installation, unless it is the first
version; if it is, then it is installed as soon as rules are loaded, where that is not forbidden. -/
theorem Program.requests_named {arguments : Arguments} {settings : Settings} {config : CampaignConfig}
    (hconfig : configure arguments settings.defaultSolcVersion = .ok config) {o : Outside} {b : Bench}
    (hmemory : b.memory = {}) (budget : Nat) : ∃ first more,
    config.versions = resolveVersions arguments.compilerVersions arguments.testEof
      settings.defaultSolcVersion ∧
    config.versions.head? = some first ∧
    ((campaign arguments settings budget).run o b).2.asked = b.asked ++ more ∧
    (∀ r ∈ more, r.Named settings config.versions) ∧
    (first ≠ Backend.eofVersion → ∀ r ∈ more, ¬ r.Needs Backend.eofVersion) ∧
    (settings.defaultSolcVersion ≠ Backend.eofVersion →
      ¬ IsRendered settings config.versions Backend.eofVersion) ∧
    ∀ path rules b₁, config.rulesPath = some (.value path) →
      (loadRules settings (some path)).run o b = (.ok rules, b₁) →
      first ∉ o.installed b₁.asked → settings.solcInstallMissing = true →
      .install first ∈ more := by
  have hinformed : b.Informed settings := by
    intro path version hversion
    rw [hmemory] at hversion
    cases hversion
  have hversions := (accepted_of_configure hconfig).versions
  obtain ⟨first, hfirst⟩ := Option.ne_none_iff_exists'.mp (mt List.head?_eq_none_iff.mp
    (hversions ▸ resolveVersions_ne_nil arguments.compilerVersions _ _))
  have hbuilt := Campaign.advances_build config settings o b
  rcases hbuild : (Campaign.build config settings).run o b with ⟨r, b₂⟩
  rw [hbuild] at hbuilt
  obtain ⟨⟨before, hbefore, hnamed⟩, hinformed₂⟩ := hbuilt hinformed
  obtain ⟨⟨after, hafter, hnamed'⟩, -⟩ := advances_after_build hconfig hbuild budget hinformed₂
  have hall : ∀ r ∈ before ++ after, r.Named settings config.versions := by
    intro r hr
    exact (List.mem_append.mp hr).elim (hnamed r) (hnamed' r)
  refine ⟨first, before ++ after, hversions, hfirst, ?_, hall, ?_, fun h => not_isRendered_eof h _,
    ?_⟩
  · rw [hafter, hbefore, List.append_assoc]
  · intro hne r hr hneeds
    rcases (hall r hr).needed hneeds with hhead | ⟨-, hstandard⟩
    · rw [hfirst] at hhead
      exact hne (Option.some.inj hhead)
    · exact hstandard rfl
  · intro path rules b₁ hpath hrules hunlisted hallowed
    have hmemory₁ : b₁.memory = b.memory :=
      ((keeps_loadRules (K := fun _ => True) (fun _ => trivial) (some path)).of_run hrules).memory
    have hunknown : first ∉ b₁.memory.installed := by
      rw [hmemory₁, hmemory]
      exact List.not_mem_nil
    obtain ⟨more, hmore, hinstall⟩ := Campaign.build_installs_first hinformed hpath hrules hfirst
      hunknown hunlisted hallowed
    rw [hbuild] at hmore
    obtain rfl : before = more := List.append_cancel_left (hbefore.symm.trans hmore)
    exact List.mem_append_left after hinstall

namespace Sample

def withVersions (versions : List String) : Arguments where
  seeds := [⟨"", ["c.sol"]⟩]
  compilerVersions := some versions
  rewrites := some (.value rulesPath)

def versionsConfig (versions : List String) : CampaignConfig where
  seedFiles := [⟨"", ["c.sol"]⟩]
  rulesPath := some (.value rulesPath)
  versions

end Sample

/-- The flag is installed if it comes first, and needed by no request if it comes last. -/
theorem flag_installed_if_first :
    (∃ more, ((Program.campaign (Sample.withVersions ["eof", "a"]) {} 0).run Sample.parsing
      (Sample.benchWithRuleFile .empty)).2.asked = more ∧ .install "eof" ∈ more) ∧
    ∃ more, ((Program.campaign (Sample.withVersions ["a", "eof"]) {} 0).run Sample.parsing
      (Sample.benchWithRuleFile .empty)).2.asked = more ∧
      .install "a" ∈ more ∧ ∀ r ∈ more, ¬ r.Needs "eof" := by
  have hloads : Rules.Loads {} Sample.parsing (Sample.benchWithRuleFile .empty)
      (some Sample.rulesPath) (.ok
        { text := "", rewrites := [.text "r"], path := some Sample.rulesPath }) :=
    .loaded Sample.reads_empty_rules rfl Sample.accepts_oneRewrite (by simp)
  have hloaded := hloads.run
  rcases hrules : (loadRules {} (some Sample.rulesPath)).run Sample.parsing
    (Sample.benchWithRuleFile .empty) with ⟨r, b₁⟩
  rw [hrules] at hloaded
  subst hloaded
  constructor
  · have hconfig : configure (Sample.withVersions ["eof", "a"]) (Settings.defaultSolcVersion {}) =
        .ok (Sample.versionsConfig ["eof", "a"]) := rfl
    obtain ⟨first, more, -, hfirst, hasked, -, -, -, hinstalls⟩ :=
      Program.requests_named hconfig (o := Sample.parsing) (b := Sample.benchWithRuleFile .empty) rfl 0
    obtain rfl : "eof" = first := Option.some.inj hfirst
    exact ⟨more, hasked, hinstalls _ _ b₁ rfl hrules List.not_mem_nil rfl⟩
  · have hconfig : configure (Sample.withVersions ["a", "eof"]) (Settings.defaultSolcVersion {}) =
        .ok (Sample.versionsConfig ["a", "eof"]) := rfl
    obtain ⟨first, more, -, hfirst, hasked, -, hneeds, -, hinstalls⟩ :=
      Program.requests_named hconfig (o := Sample.parsing) (b := Sample.benchWithRuleFile .empty) rfl 0
    obtain rfl : "a" = first := Option.some.inj hfirst
    exact ⟨more, hasked, hinstalls _ _ b₁ rfl hrules List.not_mem_nil rfl, hneeds (by decide)⟩

end BackendFuzz
