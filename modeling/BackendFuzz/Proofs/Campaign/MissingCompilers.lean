import BackendFuzz.Proofs.Campaign.Setup
import BackendFuzz.Proofs.Compiler.Run
import BackendFuzz.Proofs.Session.Configured

/-!
# Compilers that are missing

Where the engine renders all sources, no tool of a campaign finds anything wrong
with the configuration, but for the compiler of a version that is neither there
nor may be installed.
-/

namespace BackendFuzz

open Session

/-! ## Tools without problems -/

def Outside.RendersAll (o : Outside) (settings : Settings) : Prop :=
  ∀ tree version b, ∃ text, ((Engine.render settings tree version).run o b).1 = .ok (.text text)

section
variable {o : Outside} {settings : Settings}

theorem Engine.configured_render (ho : o.RendersAll settings) (tree : SyntaxTree)
    (version : String) : (Engine.render settings tree version).Configured o := by
  intro b fault b' h
  obtain ⟨text, htext⟩ := ho tree version b
  rw [h] at htext
  cases htext

theorem CompilerVersion.configured_query (path : String) :
    (CompilerVersion.query settings path).Configured o := by
  have hlast : ∀ version : String, (do
      Session.debug .eofCompiler s!"Resolved compiler version {path} => {version}"
      modify fun b => { b with memory :=
        { b.memory with versions := b.memory.versions ++ [(path, version)] } }
      return version : Session String).Configured o := by
    intro version
    apply configured_bind (configured_modify _)
    intro _
    exact configured_bind (configured_modify _) fun _ => configured_pure _
  apply configured_bind configured_get
  intro b
  split
  · exact configured_pure _
  · apply configured_bind (configured_note _)
    intro before
    apply configured_bind configured_read
    intro outside
    dsimp only
    split
    · split
      · exact hlast _
      · exact configured_bind (configured_modify _) fun _ => hlast _
    · exact configured_bind (configured_modify _) fun _ => hlast _
    · exact configured_bind (configured_modify _) fun _ => hlast _
    · apply configured_bind (configured_settled (configured_throw rfl) _)
      intro _
      exact hlast _

theorem CompilerVersion.configured_resolve (backend : Backend) :
    (CompilerVersion.resolve settings backend).Configured o := by
  unfold resolve
  split
  · exact configured_query _
  · exact configured_pure _

theorem Dispatcher.configured_render (ho : o.RendersAll settings) (user : Option Fields)
    (tree : SyntaxTree) (backend : Backend) :
    (Dispatcher.render ⟨settings, user⟩ tree backend).Configured o := by
  apply configured_bind (CompilerVersion.configured_resolve backend)
  intro version
  exact Engine.configured_render ho tree version

theorem configured_saveVariant (path : Path) (source : Json) :
    (saveVariant path source).Configured o := by
  apply configured_bind (configured_furnish _)
  intro _
  apply configured_bind (configured_checkPath path)
  intro _
  apply configured_bind configured_get
  intro b
  split
  · split
    · exact configured_pure _
    · exact configured_throw rfl
  · apply configured_bind (configured_modify _)
    intro _
    split
    · apply configured_bind (configured_encoded _)
      intro content
      apply configured_bind (configured_writeFile _ content)
      intro _
      exact configured_bind (configured_modify _) fun _ => configured_pure _
    · exact configured_throw_bind rfl _

theorem configured_opened (results : ResultsFile) : results.opened.Configured o := by
  apply configured_bind (configured_furnish _)
  intro _
  apply configured_bind (configured_changeFiles _ _)
  intro _
  apply configured_bind (configured_modify _)
  intro _
  exact configured_bind configured_get fun _ => configured_pure _

theorem configured_write (results : ResultsFile) (records : List DivergenceRecord) :
    (results.write records).Configured o := by
  unfold ResultsFile.write
  split
  · exact configured_throw rfl
  · split
    · exact configured_pure _
    · apply configured_bind (configured_encoded _)
      intro lines
      exact configured_bind (configured_modify _) fun _ => configured_pure _

theorem configured_withScratch {α : Type} {directory : Path} {body : Session α}
    (h : body.Configured o) : (withScratch directory body).Configured o := by
  apply configured_bind (configured_changeFiles _ _)
  intro _
  exact configured_ensuring h (configured_modify _)

/-! ### Compilers -/

theorem EofCompiler.unfaulted_outputOf (command : List String) (ended : Ended) :
    Unfaulted (outputOf command ended) := by
  unfold outputOf
  split
  · exact unfaulted_ok _
  · split
    · exact unfaulted_ok _
    · apply unfaulted_bind (unfaulted_mapError (Fault.ofParse_unconfigured fun _ => rfl) _)
      intro output
      apply unfaulted_bind (unfaulted_mapError (fun _ => rfl) _)
      intro contracts
      exact unfaulted_ok _

theorem EofCompiler.configured_compile (source : Json) :
    (EofCompiler.compile settings source).Configured o := by
  unfold compile
  apply configured_bind
  · apply configured_withScratch
    split
    · apply configured_bind (configured_encoded _)
      intro content
      apply configured_bind (configured_writeFile _ content)
      intro _
      apply configured_bind (configured_note _)
      intro before
      apply configured_bind configured_read
      intro outside
      exact configured_settled (configured_throw rfl) _
    · exact configured_throw rfl
  · intro ended
    dsimp only
    split
    · apply configured_bind (configured_modify _)
      intro _
      exact configured_ofExcept (unfaulted_outputOf _ ended)
    · exact configured_ofExcept (unfaulted_outputOf _ ended)

theorem StandardOutput.unfaulted_parse (stdout : String) : Unfaulted (parse stdout) := by
  apply unfaulted_bind (unfaulted_mapError (Fault.ofParse_unconfigured fun _ => rfl) _)
  intro output
  exact unfaulted_mapError (fun _ => rfl) _

theorem StandardCompiler.unfaulted_outputOf (ended : Ended) : Unfaulted (outputOf ended) := by
  unfold outputOf
  split
  · exact unfaulted_ok _
  · exact StandardOutput.unfaulted_parse _

/-! ### The machine -/

theorem Machine.configured_writeDump (path : Path) (dump : Option ByteArray) :
    (writeDump path dump).Configured o := by
  cases dump with
  | none => exact configured_pure ()
  | some content => exact configured_writeFile path content

theorem Machine.configured_readDump (path : Path) (what : String) :
    (readDump path what).Configured o := by
  unfold readDump
  apply configured_bind
  · apply configured_tryCatch (configured_readTextFile path)
    intro fault hfault
    split
    · exact configured_throw rfl
    · exact configured_throw hfault
  · intro text
    exact configured_ofExcept
      (unfaulted_mapError (Fault.ofParse_unconfigured fun _ => rfl) _)

theorem Machine.configured_start (bytecode : Json) (callData : String) (revision : Int) :
    (start settings bytecode callData revision).Configured o := by
  unfold start
  apply configured_bind (configured_note _)
  intro before
  apply configured_bind (configured_looking _)
  intro _
  apply configured_bind configured_read
  intro outside
  apply configured_bind (configured_writeDump _ _)
  intro _
  apply configured_bind (configured_writeDump _ _)
  intro _
  apply configured_bind (configured_settled (configured_throw rfl) _)
  intro ended
  dsimp only
  split
  · apply configured_bind (configured_modify _)
    intro _
    exact configured_throw_bind rfl _
  · exact configured_bind (configured_modify _) fun _ => configured_pure _

theorem Machine.configured_execute (bytecode : Json) (callData : String) (revision : Int) :
    (execute settings bytecode callData revision).Configured o := by
  rw [execute_eq]
  apply configured_bind (configured_modify _)
  intro _
  apply configured_bind
  · apply configured_withScratch
    apply configured_bind (configured_start bytecode callData revision)
    intro ended
    split
    · exact configured_throw rfl
    · apply configured_bind (configured_readDump _ _)
      intro storage
      exact configured_bind (configured_readDump _ _) fun logs => configured_pure _
  · rintro ⟨ended, status, shown, storage, logs⟩
    apply configured_ofExcept
    unfold outcomeOf
    split
    · apply unfaulted_bind (unfaulted_mapError (fun _ => rfl) _)
      intro entries
      exact unfaulted_ok _
    · exact unfaulted_error rfl

/-! ## A compiler that is missing -/

theorem StandardCompiler.ensureInstalled_endsWith_iff {version : String} {b : Bench}
    {fault : Fault} (hf : fault.isConfiguration = true) :
    (ensureInstalled settings version).EndsWith o b fault ↔
      settings.solcInstallMissing = false ∧ version ∉ b.memory.installed ∧
        version ∉ o.installed b.asked ∧ fault = .configuration (.compilerMissing version) := by
  by_cases hi : b.memory.installed.contains version = true
  · refine iff_of_false ?_ ?_
    · rintro ⟨b', h⟩
      rw [run_ensureInstalled hi] at h
      cases h
    · rintro ⟨-, hunknown, -⟩
      exact hunknown (List.contains_iff_mem.mp hi)
  have hunknown : version ∉ b.memory.installed := fun h => hi (List.contains_iff_mem.mpr h)
  unfold ensureInstalled EndsWith
  rw [run_bind_ok (run_get o b)]
  dsimp only
  rw [if_neg hi, run_bind_ok (run_note o b _), run_bind_ok (run_read o _)]
  by_cases ha : (o.installed b.asked).contains version = true
  · rw [if_neg (by rw [ha]; decide)]
    refine iff_of_false ?_ ?_
    · rintro ⟨b', h⟩
      cases h
    · rintro ⟨-, -, habsent, -⟩
      exact habsent (List.contains_iff_mem.mp ha)
  have habsent : version ∉ o.installed b.asked := fun h => ha (List.contains_iff_mem.mpr h)
  rw [if_pos (by simpa using habsent)]
  cases hs : settings.solcInstallMissing with
  | true =>
    -- An installation that fails is no problem of configuration.
    rw [if_neg (by simp)]
    refine iff_of_false (Configured.not_endsWith hf ?_) (by simp)
    apply configured_bind (configured_modify _)
    intro _
    apply configured_bind (configured_note _)
    intro before
    apply configured_bind configured_read
    intro outside
    split
    · exact configured_throw_bind rfl _
    · exact configured_modify _
  | false =>
    rw [if_pos (by simp)]
    constructor
    · rintro ⟨b', h⟩
      rw [run_bind_error (run_throw o _ _)] at h
      cases h
      exact ⟨rfl, hunknown, habsent, rfl⟩
    · rintro ⟨-, -, -, rfl⟩
      exact ⟨_, run_bind_error (run_throw o _ _) _⟩

theorem StandardCompiler.compile_endsWith_iff {source : Json} {version : String}
    {user : Option Fields} {b : Bench} {fault : Fault} (hf : fault.isConfiguration = true) :
    (compile settings source version user).EndsWith o b fault ↔
      (ensureInstalled settings version).EndsWith o b fault := by
  apply endsWith_bind_first_iff hf
  intro _
  apply configured_bind (configured_note _)
  intro before
  apply configured_bind configured_read
  intro outside
  apply configured_bind (configured_settled (configured_throw rfl) _)
  intro ended
  dsimp only
  split
  · apply configured_bind (configured_modify _)
    intro _
    exact configured_ofExcept (unfaulted_outputOf ended)
  · exact configured_ofExcept (unfaulted_outputOf ended)

namespace Dispatcher

variable {user : Option Fields} {backend : Backend} {source name : Json} {b : Bench}
  {fault : Fault}

def compileSource (d : Dispatcher) (backend : Backend) (source name : Json) :
    Session CompileOutcome := do
  if backend.isEof then
    let output ← EofCompiler.compile d.settings source
    looking (ofCombined backend output)
  else
    let output ← StandardCompiler.compile d.settings source backend.version d.user
    if lacksBytecode output name then
      Session.debug .dispatcher
        s!"Bytecode not found for contract {name.display}. Version: {backend.version}"
    looking (ofStandard backend output name)

theorem compile_eq (d : Dispatcher) (variant : Variant) (backend : Backend) :
    d.compile variant backend = (do
      let source ← d.render variant.tree backend
      let name ← looking (targetName variant)
      d.compileSource backend source name) := rfl

theorem configured_compileSource (heof : backend.isEof = true) :
    (compileSource ⟨settings, user⟩ backend source name).Configured o := by
  unfold compileSource
  rw [if_pos heof]
  apply configured_bind (EofCompiler.configured_compile source)
  intro output
  exact configured_looking _

theorem compileSource_endsWith_iff (hf : fault.isConfiguration = true) :
    (compileSource ⟨settings, user⟩ backend source name).EndsWith o b fault ↔
      backend.isEof = false ∧ settings.solcInstallMissing = false ∧
      backend.version ∉ b.memory.installed ∧ backend.version ∉ o.installed b.asked ∧
      fault = .configuration (.compilerMissing backend.version) := by
  by_cases heof : backend.isEof = true
  · apply iff_of_false ((configured_compileSource heof).not_endsWith hf)
    intro h
    rw [h.1] at heof
    cases heof
  · have hstandard : (compileSource ⟨settings, user⟩ backend source name).EndsWith o b fault ↔
        (StandardCompiler.compile settings source backend.version user).EndsWith o b fault := by
      unfold compileSource
      rw [if_neg heof]
      apply endsWith_bind_first_iff hf
      intro output
      split
      · exact configured_bind (configured_modify _) fun _ => configured_looking _
      · exact configured_looking _
    rw [hstandard, StandardCompiler.compile_endsWith_iff hf,
      StandardCompiler.ensureInstalled_endsWith_iff hf]
    simp [heof]

end Dispatcher

namespace Campaign

/-- The compiler of a backend that has its turn is not there once the source is rendered. -/
structure Lacks (c : Campaign) (o : Outside) (variant : Variant) (backend : Backend) (b : Bench) :
    Prop where
  standard : backend.isEof = false
  named : ∃ name, Dispatcher.targetName variant = .ok name
  absent : ∃ source rendered,
    (c.tools.render variant.tree backend).run o b = (.ok source, rendered) ∧
    backend.version ∉ rendered.memory.installed ∧ backend.version ∉ o.installed rendered.asked

variable {c : Campaign} {variant : Variant} {backend : Backend} {b : Bench} {fault : Fault}
  (hc : c.Equipped settings)
include hc

theorem configured_runCall (index : Int) (backend : Backend) (outcome : CompileOutcome)
    (plan : CallPlan) : (c.runCall index backend outcome plan).Configured o := by
  have hexecute : ∀ callData,
      (c.tools.execute outcome.bytecode callData backend.revision).Configured o := by
    intro callData
    rw [hc.executes]
    exact Machine.configured_execute _ callData backend.revision
  unfold runCall
  dsimp only
  split
  · apply configured_bind (configured_looking _)
    intro callData
    split
    · exact configured_bind (configured_modify _) fun _ => configured_pure _
    · apply configured_attempt_bind (hexecute _)
      intro r hr
      split
      · exact configured_pure _
      · exact configured_bind (configured_modify _) fun _ => configured_pure _
      · exact configured_throw (hr _ rfl)
  · rw [pure_bind]
    exact configured_bind (configured_modify _) fun _ => configured_pure _

variable (ho : o.RendersAll settings) (hf : fault.isConfiguration = true)
include ho hf

theorem compile_endsWith_iff : (c.tools.compile variant backend).EndsWith o b fault ↔
    settings.solcInstallMissing = false ∧ c.Lacks o variant backend b ∧
      fault = .configuration (.compilerMissing backend.version) := by
  obtain ⟨user, hrender, hcompile⟩ := hc.compiles
  rw [hcompile, Dispatcher.compile_eq,
    endsWith_bind_later_iff hf (Dispatcher.configured_render ho user variant.tree backend)]
  constructor
  · intro h
    obtain ⟨source, rendered, hsource, h⟩ := h
    obtain ⟨name, hname, h⟩ := (endsWith_looking_bind_iff hf).mp h
    obtain ⟨hstandard, hs, hunknown, habsent, hfault⟩ :=
      (Dispatcher.compileSource_endsWith_iff hf).mp h
    rw [← hrender] at hsource
    exact ⟨hs, ⟨hstandard, ⟨name, hname⟩, source, rendered, hsource, hunknown, habsent⟩, hfault⟩
  · intro h
    obtain ⟨hs, ⟨hstandard, ⟨name, hname⟩, source, rendered, hsource, hunknown, habsent⟩,
      hfault⟩ := h
    rw [hrender] at hsource
    refine ⟨source, rendered, hsource, (endsWith_looking_bind_iff hf).mpr ⟨name, hname, ?_⟩⟩
    apply (Dispatcher.compileSource_endsWith_iff hf).mpr
    exact ⟨hstandard, hs, hunknown, habsent, hfault⟩

theorem tryBackend_endsWith_iff {plan : Option CallPlan} :
    (c.tryBackend variant plan backend).EndsWith o b fault ↔
      settings.solcInstallMissing = false ∧ c.Lacks o variant backend b ∧
        fault = .configuration (.compilerMissing backend.version) := by
  rw [← compile_endsWith_iff hc ho hf]
  apply endsWith_bind_first_iff hf
  intro outcome
  split
  · exact configured_bind (configured_modify _) fun _ => configured_pure _
  · cases plan with
    | none => exact configured_pure _
    | some plan => exact configured_runCall hc variant.index backend outcome plan

end Campaign

end

end BackendFuzz
