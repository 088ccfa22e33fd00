import BackendFuzz.Campaign.Build
import BackendFuzz.Proofs.Compiler.Run
import BackendFuzz.Proofs.Execution.Execute
import BackendFuzz.Proofs.Session.Quiet

/-!
# What the tools leave

Values of a call are drawn by planning alone, compilers run for compiling alone,
and the machine for executing alone. No tool prints or reads the clock, and files
are left as they were, but for sources, which are kept only where nothing was.
-/

namespace BackendFuzz

open Session

/-! ## Requests for variants -/

def Engine.input (action : RewriteAction) (fields : Fields) : String :=
  (Json.object (("action", .text action.name) :: fields)).print

def Engine.request (settings : Settings) (action : RewriteAction) (fields : Fields) : Request :=
  .engine [settings.rewriterPath] settings.rewriteTimeout (input action fields)

theorem Engine.printed_input (action : RewriteAction) (fields : Fields) : ∃ rest,
    (input action fields).toList =
      "\x7b\"action\": ".toList ++ (Json.printedText action.name.toList ++ rest) := by
  have haction : Json.printedText "action".toList = "\"action\"".toList := by decide
  unfold input Json.print
  rw [String.toList_ofList, Json.printed]
  cases fields with
  | nil => exact ⟨['}'], by rw [Json.printedFields, haction, Json.printed]; simp⟩
  | cons field fields =>
    refine ⟨", ".toList ++ Json.printedFields (field :: fields) ++ ['}'], ?_⟩
    rw [Json.printedFields, haction, Json.printed]
    · simp
    · simp

theorem Engine.input_render_ne_rewrite (fields fields' : Fields) :
    input .render fields ≠ input .rewrite fields' := by
  intro h
  obtain ⟨rest, hrender⟩ := printed_input .render fields
  obtain ⟨rest', hrewrite⟩ := printed_input .rewrite fields'
  rw [h, hrewrite] at hrender
  -- The texts part within the name of the action.
  have hparted := List.append_cancel_left hrender
  have hr : Json.printedText RewriteAction.render.name.toList = "\"render\"".toList := by decide
  have hw : Json.printedText RewriteAction.rewrite.name.toList = "\"rewrite\"".toList := by decide
  rw [hr, hw] at hparted
  simp at hparted

namespace Request

def isSessionDraw : Request → Bool
  | choice _ => true
  | sessionBits _ => true
  | _ => false

def IsRewrite (r : Request) : Prop :=
  ∃ command timeout fields, r = .engine command timeout (Engine.input .rewrite fields)

/-- A request without part in what variants there are. -/
structure Testing (r : Request) : Prop where
  undrawn : r.isSessionDraw = false
  unrewritten : ¬ r.IsRewrite

theorem testing_of_role {r : Request} (h : r.role ≠ .other) : r.Testing where
  undrawn := by cases r <;> first | rfl | exact absurd rfl h
  unrewritten := by
    rintro ⟨command, timeout, fields, rfl⟩
    exact h rfl

theorem testing_of_compile {r : Request} (h : r.role = .compile) : r.Testing :=
  testing_of_role (by rw [h]; decide)

theorem testing_render (settings : Settings) (fields : Fields) :
    (Engine.request settings .render fields).Testing where
  undrawn := rfl
  unrewritten := by
    rintro ⟨command, timeout, fields', h⟩
    exact Engine.input_render_ne_rewrite fields fields' (Request.engine.inj h).2.2

theorem testing_eofVersion (command : List String) (timeout : Binary64) :
    (Request.eofVersion command timeout).Testing :=
  ⟨rfl, by rintro ⟨_, _, _, h⟩; cases h⟩

theorem testing_installedVersions : Request.installedVersions.Testing :=
  ⟨rfl, by rintro ⟨_, _, _, h⟩; cases h⟩

theorem testing_install (version : String) : (Request.install version).Testing :=
  ⟨rfl, by rintro ⟨_, _, _, h⟩; cases h⟩

def Compiling (r : Request) : Prop := r.role = .other ∨ r.role = .compile

end Request

section
variable {F : FileStore → FileStore → Prop} [IsPreorder FileStore F]

/-! ## The rewrite engine -/

theorem Engine.leaves_call {K : Request → Prop} (settings : Settings) (action : RewriteAction)
    (fields : Fields) (hK : K (request settings action fields)) :
    (Engine.call settings action fields).Leaves (Bench.Left K F) := by
  refine leaves_bind (leaves_note hK) fun before => leaves_bind leaves_read fun o => ?_
  split
  · exact leaves_ofExcept _
  · exact leaves_throw _
  · exact leaves_throw _
  · exact leaves_bind (leaves_settled _ (leaves_throw _) _) fun _ => leaves_ofExcept _

theorem Engine.leaves_render (settings : Settings) (tree : SyntaxTree) (version : String) :
    (Engine.render settings tree version).Leaves
      (Bench.Left (fun r => r.role = .other ∧ r.Testing) F) :=
  leaves_bind (leaves_call _ _ _ ⟨rfl, Request.testing_render _ _⟩) fun _ => leaves_looking _

theorem Engine.leaves_rewrite (settings : Settings) (tree : SyntaxTree) (rules : RuleSet)
    (depth seed : Int) :
    (Engine.rewrite settings tree rules depth seed).Leaves (Bench.Left (·.role = .other) F) :=
  leaves_bind (leaves_call _ _ _ rfl) fun _ => leaves_bind (leaves_looking _) fun _ =>
    leaves_pure _

theorem Generator.leaves_generate {g : Generator} (hg : g.selector = none)
    (seeds : List SyntaxTree) (index : Int) :
    (g.generate seeds index).Leaves (Bench.Left (·.role = .other) F) := by
  unfold generate
  simp only [hg]
  split
  · exact leaves_throw_bind _ _
  · refine leaves_bind (leaves_pick _ rfl) fun seed => ?_
    split
    · exact leaves_pure _
    · exact leaves_bind (leaves_sessionBits _ rfl) fun _ =>
        leaves_bind (Engine.leaves_rewrite _ _ _ _ _) fun _ =>
          leaves_bind (leaves_debug _ _) fun _ => leaves_pure _

/-! ## Planning -/

theorem leaves_drawInteger (t : IntegerType) :
    (drawInteger t).Leaves (Bench.Left (·.role = .draw) F) := by
  unfold drawInteger
  split
  · exact leaves_bind (leaves_callBits _ rfl) fun _ =>
      leaves_bind (leaves_callBits _ rfl) fun sign => leaves_pure _
  · exact leaves_callBits _ rfl

theorem Planner.leaves_plan (p : Planner) (tree : SyntaxTree) :
    (p.plan tree).Leaves (Bench.Left (·.role = .draw) F) :=
  leaves_bind (leaves_ofExcept _) fun _ => leaves_bind (leaves_mapM leaves_drawInteger _)
    fun _ => leaves_bind (leaves_debug _ _) fun _ => leaves_pure _

/-! ## Compilers -/

theorem CompilerVersion.leaves_query (settings : Settings) (path : String) :
    (CompilerVersion.query settings path).Leaves
      (Bench.Left (fun r => r.role = .other ∧ r.Testing) F) := by
  refine leaves_bind leaves_get fun b => ?_
  split
  · exact leaves_pure _
  · refine leaves_bind (leaves_note ⟨rfl, Request.testing_eofVersion _ _⟩) fun before =>
      leaves_bind leaves_read fun o => ?_
    have hlast : ∀ version : String, (do
        Session.debug .eofCompiler s!"Resolved compiler version {path} => {version}"
        modify fun b => { b with memory :=
          { b.memory with versions := b.memory.versions ++ [(path, version)] } }
        return version : Session String).Leaves
          (Bench.Left (fun r => r.role = .other ∧ r.Testing) F) := fun version =>
      leaves_bind (leaves_debug _ _) fun _ =>
        leaves_bind (leaves_modify fun b => b.left_version _) fun _ => leaves_pure _
    dsimp only
    split
    · split
      · exact hlast _
      · exact leaves_bind (leaves_debug _ _) fun _ => hlast _
    · exact leaves_bind (leaves_debug _ _) fun _ => hlast _
    · exact leaves_bind (leaves_debug _ _) fun _ => hlast _
    · exact leaves_bind (leaves_settled _ (leaves_throw _) _) fun _ => hlast _

theorem CompilerVersion.leaves_resolve (settings : Settings) (backend : Backend) :
    (CompilerVersion.resolve settings backend).Leaves
      (Bench.Left (fun r => r.role = .other ∧ r.Testing) F) := by
  unfold CompilerVersion.resolve
  split
  · exact leaves_query _ _
  · exact leaves_pure _

theorem Dispatcher.leaves_render (d : Dispatcher) (tree : SyntaxTree) (backend : Backend) :
    (d.render tree backend).Leaves (Bench.Left (fun r => r.role = .other ∧ r.Testing) F) :=
  leaves_bind (CompilerVersion.leaves_resolve _ _) fun _ => Engine.leaves_render _ _ _

theorem StandardCompiler.leaves_ensureInstalled (settings : Settings) (version : String) :
    (StandardCompiler.ensureInstalled settings version).Leaves
      (Bench.Left (fun r => r.role = .other ∧ r.Testing) F) := by
  refine leaves_bind leaves_get fun b => ?_
  split
  · exact leaves_pure _
  · have hlast : (modify fun b => { b with memory :=
        { b.memory with installed := b.memory.installed ++ [version] } } :
          Session Unit).Leaves (Bench.Left (fun r => r.role = .other ∧ r.Testing) F) :=
      leaves_modify fun b => b.left_installed _
    refine leaves_bind (leaves_note ⟨rfl, Request.testing_installedVersions⟩) fun before =>
      leaves_bind leaves_read fun o => ?_
    dsimp only
    split
    · split
      · exact leaves_throw_bind _ _
      · refine leaves_bind (leaves_info _ _) fun _ =>
          leaves_bind (leaves_note ⟨rfl, Request.testing_install _⟩) fun _ =>
            leaves_bind leaves_read fun _ => ?_
        split
        · exact leaves_throw_bind _ _
        · exact hlast
    · exact hlast

theorem StandardCompiler.leaves_compile (settings : Settings) (source : Json) (version : String)
    (user : Option Fields) :
    (StandardCompiler.compile settings source version user).Leaves
      (Bench.Left (fun r => r.Compiling ∧ r.Testing) F) := by
  have hinstalls : (ensureInstalled settings version).Leaves
      (Bench.Left (fun r => r.Compiling ∧ r.Testing) F) :=
    (leaves_ensureInstalled settings version).mono fun b b' h =>
      h.mono (fun _ => And.imp_left Or.inl) fun _ _ hf => hf
  refine leaves_bind hinstalls fun _ =>
    leaves_bind (leaves_note ⟨Or.inr rfl, Request.testing_of_compile rfl⟩) fun before =>
      leaves_bind leaves_read fun o =>
        leaves_bind (leaves_settled _ (leaves_throw _) _) fun ended => ?_
  split
  · exact leaves_bind (leaves_debug _ _) fun _ => leaves_ofExcept _
  · exact leaves_ofExcept _

end

theorem EofCompiler.leaves_compile (settings : Settings) (source : Json) :
    (EofCompiler.compile settings source).Leaves
      (Bench.Left (fun r => r.Compiling ∧ r.Testing) (FileStore.Cleared scratchPlace)) := by
  have hwrite : ∀ content : ByteArray, (Session.writeFile sourceFile content).Leaves
      (Bench.Left (fun r => r.Compiling ∧ r.Testing) (FileStore.OnlyWithin scratchPlace)) :=
    fun content =>
      leaves_changeFiles fun _ _ h => FileStore.onlyWithin_writeFile (by decide) (by decide) h
  refine leaves_bind (leaves_withScratch locate_scratch ?_) ?_
  · cases source with
    | text text =>
      exact leaves_bind (leaves_encoded _) fun _ => leaves_bind (hwrite _) fun _ =>
        leaves_bind (leaves_note ⟨Or.inr rfl, Request.testing_of_compile rfl⟩) fun _ =>
          leaves_bind leaves_read fun _ => leaves_settled _ (leaves_throw _) _
    | _ => exact leaves_throw _
  · intro ended
    dsimp only
    split
    · exact leaves_bind (leaves_debug _ _) fun _ => leaves_ofExcept _
    · exact leaves_ofExcept _

namespace Dispatcher

theorem leaves_compile (d : Dispatcher) (variant : Variant) (backend : Backend) :
    (d.compile variant backend).Leaves
      (Bench.Left (fun r => r.Compiling ∧ r.Testing)
        (FileStore.Swept (· = EofCompiler.scratchPlace))) := by
  have hrender : (d.render variant.tree backend).Leaves
      (Bench.Left (fun r => r.Compiling ∧ r.Testing)
        (FileStore.Swept (· = EofCompiler.scratchPlace))) :=
    (d.leaves_render variant.tree backend).mono fun b b' h =>
      h.mono (fun _ => And.imp_left Or.inl) fun _ _ h => h
  refine leaves_bind hrender fun source => leaves_bind (leaves_looking _) fun name => ?_
  split
  · exact leaves_bind ((EofCompiler.leaves_compile _ _).mono fun b b' h =>
      h.mono (fun _ h => h) fun _ _ h => h.swept) fun _ => leaves_looking _
  · refine leaves_bind (StandardCompiler.leaves_compile _ _ _ _) fun output => ?_
    dsimp only
    split
    · exact leaves_bind (leaves_debug _ _) fun _ => leaves_looking _
    · exact leaves_looking _

theorem ofStandard_backend {backend : Backend} {output : StandardOutput} {name : Json}
    {outcome : CompileOutcome} (h : ofStandard backend output name = .ok outcome) :
    outcome.backend = backend := by
  unfold ofStandard at h
  split at h
  · cases hb : output.bytecode name with
    | error cause => rw [hb] at h; cases h
    | ok code =>
      cases hs : output.selectors name with
      | error cause => rw [hb, hs] at h; cases h
      | ok table => rw [hb, hs] at h; cases h; rfl
  · cases hl : Json.joinLines output.errors with
    | error cause => rw [hl] at h; cases h
    | ok lines => rw [hl] at h; cases h; rfl

theorem ofCombined_backend {backend : Backend} {output : CombinedOutput}
    {outcome : CompileOutcome} (h : ofCombined backend output = .ok outcome) :
    outcome.backend = backend := by
  unfold ofCombined at h
  split at h
  · cases hb : output.bytecode with
    | error cause => rw [hb] at h; cases h
    | ok code =>
      cases hs : output.selectors with
      | error cause => rw [hb, hs] at h; cases h
      | ok table => rw [hb, hs] at h; cases h; rfl
  · cases hl : Json.joinLines output.errors with
    | error cause => rw [hl] at h; cases h
    | ok lines => rw [hl] at h; cases h; rfl

theorem yields_compile (d : Dispatcher) (variant : Variant) (backend : Backend) :
    (d.compile variant backend).Yields fun outcome => outcome.backend = backend := by
  refine yields_bind fun source => yields_bind fun name => ?_
  split
  · exact yields_bind fun output => yields_looking fun _ h => ofCombined_backend h
  · refine yields_bind fun output => ?_
    dsimp only
    split
    · exact yields_bind fun _ => yields_looking fun _ h => ofStandard_backend h
    · exact yields_looking fun _ h => ofStandard_backend h

end Dispatcher

/-! ## The machine -/

namespace Machine

theorem leaves_writeDump {K : Request → Prop} {path : Path} (hparts : ∀ part ∈ path.parts, part ≠ "..")
    (hp : Place.within { absolute := !path.root.isEmpty, names := path.parts } scratchPlace = true)
    (dump : Option ByteArray) :
    (writeDump path dump).Leaves (Bench.Left K (FileStore.OnlyWithin scratchPlace)) := by
  cases dump with
  | none => exact leaves_pure _
  | some content =>
    show (Session.writeFile path content).Leaves _
    exact leaves_changeFiles fun _ _ h => FileStore.onlyWithin_writeFile hparts hp h

theorem leaves_readDump {R : Bench → Bench → Prop} [IsPreorder Bench R] (path : Path)
    (what : String) : (readDump path what).Leaves R := by
  refine leaves_bind (leaves_tryCatch ?_ fun fault => ?_) fun text => leaves_ofExcept _
  · refine leaves_bind (leaves_checkPath path) fun _ => leaves_bind leaves_get fun b => ?_
    split
    · exact leaves_throw _
    · split
      · exact leaves_pure _
      · exact leaves_throw _
  · split <;> exact leaves_throw _

section
variable {K : Request → Prop} (settings : Settings) (bytecode : Json) (callData : String)
  (revision : Int) (o : Outside) (b : Bench)

/-- The machine is asked for at the start, and nothing is asked for after that. -/
theorem leaves_start : Bench.Left (fun _ => False) (FileStore.OnlyWithin scratchPlace)
    { b with asked := b.asked ++ [request settings bytecode callData revision] }
    ((start settings bytecode callData revision).run o b).2 := by
  unfold start
  dsimp only
  rw [run_bind_ok (run_note o b _)]
  have hrest : ∀ ended : Ended, (do
      if ended.code ≠ 0 then
        Session.debug .machine s!"EVM error: {ended.errors}"
        throw (.process {
          cause := .machineExit ended.code ended.errors
          command := command settings bytecode callData revision
          code := some ended.code, output := ended.output, errors := ended.errors })
      Session.debug .machine s!"EVM output: {ended.output}"
      return ended : Session Ended).Leaves
        (Bench.Left (fun _ => False) (FileStore.OnlyWithin scratchPlace)) := by
    intro ended
    split
    · exact leaves_bind (leaves_debug _ _) fun _ => leaves_throw_bind _ _
    · exact leaves_bind (leaves_debug _ _) fun _ => leaves_pure _
  refine leaves_bind (leaves_looking _) (fun _ => leaves_bind leaves_read fun outside => ?_) o _
  refine leaves_bind (leaves_writeDump (by decide) (by decide) _) fun _ =>
    leaves_bind (leaves_writeDump (by decide) (by decide) _) fun _ =>
      leaves_bind (leaves_settled _ (leaves_throw _) _) hrest

theorem leaves_observe : Bench.Left (fun _ => False) (FileStore.OnlyWithin scratchPlace)
    { b with asked := b.asked ++ [request settings bytecode callData revision] }
    ((observe settings bytecode callData revision).run o b).2 := by
  refine leaves_run_bind (leaves_start settings bytecode callData revision o b) fun ended => ?_
  split
  · exact leaves_throw _
  · exact leaves_bind (leaves_readDump _ _) fun _ => leaves_bind (leaves_readDump _ _) fun _ =>
      leaves_pure _

theorem leaves_execute : (execute settings bytecode callData revision).Leaves
    (Bench.Left (· = request settings bytecode callData revision)
      (FileStore.Cleared scratchPlace)) := by
  rw [execute_eq]
  refine leaves_bind (leaves_debug _ _) fun _ => leaves_bind (leaves_withScratch locate_scratch ?_)
    fun _ => leaves_ofExcept _
  intro o b
  have hasked := Bench.left_asked (K := (· = request settings bytecode callData revision))
    (F := FileStore.OnlyWithin scratchPlace) rfl b
  refine trans_of _ hasked ?_
  exact (leaves_observe settings bytecode callData revision o b).mono (fun _ h => h.elim)
    fun _ _ h => h

/-- A run asks for the machine once, unless it could not even be started. -/
theorem asked_execute :
    ((execute settings bytecode callData revision).run o b).2.asked =
        b.asked ++ [request settings bytecode callData revision] ∨
      ∃ fault b', (execute settings bytecode callData revision).run o b = (.error fault, b') ∧
        ¬ IsProcess fault ∧ b'.asked = b.asked := by
  have hafter : ∀ (x : Ended × String × String × Json × Json),
      (ofExcept (outcomeOf x.1.output x.2.1 x.2.2.1 x.2.2.2.1 x.2.2.2.2)).Leaves
        (Bench.Left (fun _ => False) (FileStore.OnlyWithin scratchPlace)) := fun _ => leaves_ofExcept _
  rw [execute_eq, run_bind_ok (run_debug o b _ _)]
  generalize hb : ({ b with events := _ } : Bench) = b₁
  have hasked : b₁.asked = b.asked := by rw [← hb]
  rcases run_changeFiles_cases o b₁ scratch FileStore.makeDirectory with
    ⟨fault, hr, hp⟩ | ⟨files, -, hr⟩
  · refine Or.inr ⟨fault, b₁, run_bind_error (run_bind_error hr _) _, ?_, hasked⟩
    rintro ⟨p, rfl⟩
    exact hp p rfl
  · refine Or.inl ?_
    have hobserve := leaves_observe settings bytecode callData revision o { b₁ with files }
    have hscratch : ((withScratch scratch (observe settings bytecode callData revision)).run o
        b₁).2.asked = b₁.asked ++ [request settings bytecode callData revision] := by
      rw [withScratch, run_bind_ok hr, run_ensuring]
      exact hobserve.asked_eq
    rw [← hasked, ← hscratch]
    have hlast := leaves_run_bind (c := ((withScratch scratch
      (observe settings bytecode callData revision)).run o b₁).2) (refl_of _ _) hafter
    exact hlast.asked_eq

end

end Machine

/-! ## Files after a program with a directory of its own -/

/-- Where nothing was at the place of the directory or below it, the files after a run of the
machine and after a compile by the object-format build are those before, whatever was asked for,
whatever the program answered and dumped, and whether or not it ended in a fault. -/
theorem no_scratch_left (settings : Settings) (o : Outside) (b : Bench) :
    (b.files.Unused Machine.scratchPlace → ∀ bytecode callData revision,
      ((Machine.execute settings bytecode callData revision).run o b).2.files = b.files) ∧
    (b.files.Unused EofCompiler.scratchPlace → ∀ source,
      ((EofCompiler.compile settings source).run o b).2.files = b.files) :=
  ⟨fun hu bytecode callData revision =>
      (Machine.leaves_execute settings bytecode callData revision o b).files.restored hu,
    fun hu source => (EofCompiler.leaves_compile settings source o b).files.restored hu⟩

namespace Sample

/-- The machine times out behind its first dump, and the object-format build is interrupted. -/
def unlucky : Outside := { Outside.alone ⟨2024, 1, 1, 0, 0, 0, 0⟩ with
  machine := fun _ _ => ⟨.timedOut, some "\x7b\x7d".toUTF8, none⟩
  eofCompiler := fun _ => .interrupted }

def seedBench : Bench where
  files := ⟨[({ absolute := false, names := ["Seed.sol"] }, .file "contract C \x7b\x7d".toUTF8)]⟩

end Sample

theorem no_scratch_left_by_faults : ∃ b' b'',
    (Machine.execute {} (.text "60") "0x" 13).run Sample.unlucky Sample.seedBench =
      (.error (.process {
        cause := .machineTimeout (Settings.vmTimeout {})
        command := Machine.command {} (.text "60") "0x" 13 }), b') ∧
    (EofCompiler.compile {} (.text "x")).run Sample.unlucky Sample.seedBench =
      (.error .interrupted, b'') ∧
    b'.files = Sample.seedBench.files ∧ b''.files = Sample.seedBench.files := by
  obtain ⟨hmachine, hcompiler⟩ := no_scratch_left {} Sample.unlucky Sample.seedBench
  have hran := hmachine (List.forall_mem_singleton.mpr rfl) (.text "60") "0x" 13
  have hcompiled := hcompiler (List.forall_mem_singleton.mpr rfl) (.text "x")
  refine ⟨_, _, ?_, ?_, hran, hcompiled⟩
  · exact Prod.ext rfl rfl
  · exact Prod.ext rfl rfl

/-! ## Sources of variants -/

def storeSource (path : Path) (source : Json) : Session Bool := do
  Session.checkPath path
  match (← get).files.createFile path with
  | .error fault =>
    if fault.cause = .taken then return false else throw (.file fault)
  | .ok files =>
    modify fun b => { b with files }
    match source with
    | .text text => Session.writeFile path (← Session.encoded text)
    | v => throw (.misuse (.written v.kind))
    Session.debug .results s!"Saved variant {path.text}"
    return true

theorem saveVariant_eq (path : Path) (source : Json) : saveVariant path source = (do
    Session.furnish path.parent
    storeSource path source) := rfl

inductive Stored (path : Path) (source : Json) (files : FileStore) :
    Except Fault Bool → FileStore → Prop where
  | refused (fault : Fault) : Stored path source files (.error fault) files
  | taken {p : Place} {node : FileNode} (hl : files.locate path = .ok p)
    (hp : files.at? p = some node) : Stored path source files (.ok false) files
  | broken (fault : Fault) {p : Place} (content : ByteArray) (hl : files.locate path = .ok p)
    (hp : files.at? p = none) :
    Stored path source files (.error fault) (files.put p (.file content))
  | kept {p : Place} {text : String} {content : ByteArray} (hl : files.locate path = .ok p)
    (hp : files.at? p = none) (hs : source = .text text) (he : Text.encode text = .ok content) :
    Stored path source files (.ok true) (files.put p (.file content))

theorem Stored.grows {path : Path} {source : Json} {files files' : FileStore}
    {r : Except Fault Bool} (h : Stored path source files r files') : files.Grows files' := by
  cases h with
  | refused fault => exact .refl files
  | taken hl hp => exact .refl files
  | broken fault content hl hp => exact FileStore.grows_put hp _
  | kept hl hp hs he => exact FileStore.grows_put hp _

theorem leaves_storeSource (path : Path) (source : Json) :
    (storeSource path source).Leaves (Bench.Left (fun _ => False) fun _ _ => True) := by
  refine leaves_bind (leaves_checkPath path) fun _ => leaves_bind leaves_get fun b => ?_
  split
  · split
    · exact leaves_pure _
    · exact leaves_throw _
  · refine leaves_bind (leaves_modify fun b => Bench.left_files trivial) fun _ => ?_
    have hlast : ∀ u : Unit, (do
        Session.debug .results s!"Saved variant {path.text}"
        return true : Session Bool).Leaves (Bench.Left (fun _ => False) fun _ _ => True) :=
      fun _ => leaves_bind (leaves_debug _ _) fun _ => leaves_pure _
    cases source with
    | text text =>
      exact leaves_bind (leaves_encoded text) fun content =>
        leaves_bind (leaves_changeFiles fun _ _ _ => trivial) hlast
    | _ => exact leaves_throw_bind _ _

theorem run_storeSource (path : Path) (source : Json) (o : Outside) (b : Bench) :
    Stored path source b.files ((storeSource path source).run o b).1
      ((storeSource path source).run o b).2.files := by
  unfold storeSource Session.checkPath
  cases hpath : path.flaw? with
  | some flaw => exact .refused _
  | none =>
    dsimp only
    rw [pure_bind, run_bind_ok (run_get o b)]
    cases hc : b.files.createFile path with
    | error fault =>
      dsimp only
      split
      · rename_i hf
        obtain ⟨p, node, hl, hp⟩ := FileStore.createFile_taken hc hf
        exact .taken hl hp
      · exact .refused _
    | ok files =>
      obtain ⟨p, hl, hp, rfl⟩ := FileStore.createFile_eq hc
      have hnames := FileStore.names_ne_nil_of_absent hp
      dsimp only
      rw [run_bind_ok (run_modify o b _)]
      cases source with
      | text text =>
        cases he : Text.encode text with
        | error fault =>
          have henc : ∀ b' : Bench, (Session.encoded text).run o b' =
              (.error (.unencodable fault), b') := by
            intro b'
            rw [Session.encoded, run_ofExcept, he, mapError_error]
          rw [run_bind_error (henc _)]
          exact .broken _ _ hl hp
        | ok content =>
          have hwrite : FileStore.writeFile (b.files.put p (.file .empty)) path content =
              .ok (b.files.put p (.file content)) := by
            simp [FileStore.writeFile, FileStore.locate_put hp hl,
              FileStore.at?_put_self b.files hnames, FileStore.put_put, ok_bind, pure, Except.pure]
          rw [run_bind_ok (run_encoded o _ he)]
          unfold Session.writeFile
          rw [run_bind_ok (run_changeFiles o _ hpath hwrite)]
          exact .kept hl hp rfl he
      | _ => exact .broken _ _ hl hp

/-- A text that has a form in bytes is stored wherever nothing is. -/
theorem storeSource_absent {path : Path} {p : Place} {text : String} {content : ByteArray}
    (o : Outside) {b : Bench} (hpath : path.flaw? = none) (hl : b.files.locate path = .ok p)
    (hn : b.files.at? p = none) (he : Text.encode text = .ok content) :
    ∃ events, (storeSource path (.text text)).run o b =
      (.ok true, { b with files := b.files.put p (.file content), events }) := by
  have hchecked : (checkPath path).run o b = (.ok (), b) := by
    rw [checkPath, hpath]
    rfl
  have hc : b.files.createFile path = .ok (b.files.put p (.file .empty)) := by
    simp [FileStore.createFile, hl, hn, ok_bind, pure, Except.pure]
  have hwrite : FileStore.writeFile (b.files.put p (.file .empty)) path content =
      .ok (b.files.put p (.file content)) := by
    simp [FileStore.writeFile, FileStore.locate_put hn hl,
      FileStore.at?_put_self b.files (FileStore.names_ne_nil_of_absent hn), FileStore.put_put,
      ok_bind, pure, Except.pure]
  unfold storeSource
  rw [run_bind_ok hchecked, run_bind_ok (run_get o b), hc]
  dsimp only
  rw [run_bind_ok (run_modify o b _), run_bind_ok (run_encoded o _ he), Session.writeFile,
    run_bind_ok (run_changeFiles o _ hpath hwrite)]
  exact ⟨_, rfl⟩

/-- A text that has a form in bytes is stored, or something is there, wherever a path leads. -/
theorem storeSource_ok {path : Path} {p : Place} {text : String} {content : ByteArray} (o : Outside)
    {b : Bench} (hpath : path.flaw? = none) (hl : b.files.locate path = .ok p)
    (he : Text.encode text = .ok content) :
    ∃ saved b', (storeSource path (.text text)).run o b = (.ok saved, b') := by
  cases hn : b.files.at? p with
  | some node =>
    have hchecked : (checkPath path).run o b = (.ok (), b) := by
      rw [checkPath, hpath]
      rfl
    have hc : b.files.createFile path = .error ⟨.taken, path.text⟩ := by
      simp [FileStore.createFile, hl, hn, ok_bind, throw, throwThe, MonadExceptOf.throw]
    unfold storeSource
    rw [run_bind_ok hchecked, run_bind_ok (run_get o b), hc]
    exact ⟨false, b, rfl⟩
  | none =>
    obtain ⟨events, hstored⟩ := storeSource_absent o hpath hl hn he
    exact ⟨true, _, hstored⟩

/-- A text that has a form in bytes is stored where nothing is, or nothing is done to the files. -/
theorem storeSource_free {path : Path} {text : String} {content : ByteArray} (o : Outside)
    {b : Bench} (hfree : b.files.Free path) (he : Text.encode text = .ok content) :
    (∃ b', (storeSource path (.text text)).run o b = (.ok true, b') ∧
      b'.files.node? path = .ok (some (.file content))) ∨
    ∃ fault, (storeSource path (.text text)).run o b = (.error fault, b) := by
  cases hpath : path.flaw? with
  | some flaw =>
    have hchecked : (checkPath path).run o b = (.error (.path flaw), b) := by
      rw [checkPath, hpath]
      rfl
    exact Or.inr ⟨_, run_bind_error hchecked _⟩
  | none =>
    cases hl : b.files.locate path with
    | ok p =>
      have hn := hfree.at? hl
      obtain ⟨events, hstored⟩ := storeSource_absent o hpath hl hn he
      refine Or.inl ⟨_, hstored, ?_⟩
      rw [FileStore.node?_of_locate (FileStore.locate_put hn hl),
        FileStore.at?_put_self _ (FileStore.names_ne_nil_of_absent hn)]
    | error fault =>
      have hc : b.files.createFile path = .error fault := by
        rw [FileStore.createFile, hl, error_bind]
      have hcause : fault.cause ≠ .taken := by
        intro ht
        obtain ⟨p, node, hp, -⟩ := FileStore.createFile_taken hc ht
        cases hl.symm.trans hp
      have hchecked : (checkPath path).run o b = (.ok (), b) := by
        rw [checkPath, hpath]
        rfl
      refine Or.inr ⟨.file fault, ?_⟩
      unfold storeSource
      rw [run_bind_ok hchecked, run_bind_ok (run_get o b), hc]
      dsimp only
      rw [if_neg hcause]
      rfl

/-- Only where nothing was is a source kept. -/
theorem leaves_saveVariant (path : Path) (source : Json) :
    (saveVariant path source).Leaves (Bench.Left (fun _ => False) FileStore.Grows) := by
  rw [saveVariant_eq]
  refine leaves_bind (leaves_furnish fun s => s.furnish_grows _) fun _ o b => ?_
  have h := leaves_storeSource path source o b
  exact ⟨h.asked, (run_storeSource path source o b).grows, h.printed, h.readings, h.versions⟩

/-! ## The results file -/

/-- An open results file is in a directory that is there, with what was in it before. -/
theorem run_opened {r r' : ResultsFile} {o : Outside} {b b' : Bench}
    (h : r.opened.run o b = (.ok r', b')) : ∃ place d files events,
      b' = { b with files, events } ∧ r'.place = some place ∧ b.files.Grows files ∧
      files.locate r.path = .ok place ∧ files.at? place = some (.file (b.files.contentAt place)) ∧
      files.locate r.path.parent = .ok d ∧ files.at? d = some .directory := by
  obtain ⟨_, b₁, hdirectory, h⟩ := run_bind_ok_inv h
  obtain ⟨_, b₂, htouch, h⟩ := run_bind_ok_inv h
  obtain ⟨made, hmade, rfl⟩ := run_furnish_inv o b hdirectory
  obtain ⟨files, hfiles, rfl⟩ := run_changeFiles_inv o _ htouch
  cases h
  obtain ⟨hgrows, p, hlocate, hcontent⟩ := FileStore.touchFile_spec hfiles
  obtain ⟨d, hd, hthere⟩ := FileStore.furnish_there hmade
  have hsame := b.files.furnish_sameFiles r.path.parent
  have hmore := b.files.furnish_grows r.path.parent
  rw [hmade] at hsame hmore
  rw [hsame.contentAt] at hcontent
  refine ⟨p, d, files, _, rfl, ?_, hmore.trans hgrows, hlocate, hcontent, FileStore.locate_of_directories (fun q _ => hgrows q .directory) hd,
    hgrows d .directory hthere⟩
  show (files.locate r.path).toOption = some p
  rw [hlocate]
  rfl

theorem leaves_opened (results : ResultsFile) :
    results.opened.Leaves (Bench.Left (fun _ => False) FileStore.Grows) := by
  unfold ResultsFile.opened
  refine leaves_bind (leaves_furnish fun s => s.furnish_grows _) fun _ => ?_
  refine leaves_bind (leaves_changeFiles fun _ _ h => (FileStore.touchFile_spec h).1) fun _ => ?_
  exact leaves_bind (leaves_info _ _) fun _ => leaves_bind leaves_get fun _ => leaves_pure _

theorem leaves_write (results : ResultsFile) (records : List DivergenceRecord) :
    (results.write records).Leaves (Bench.Left (fun _ => False) fun _ _ => True) := by
  unfold ResultsFile.write
  split
  · exact leaves_throw _
  · split
    · exact leaves_pure _
    · exact leaves_bind (leaves_encoded _) fun _ =>
        leaves_bind (leaves_modify fun _ => Bench.left_files trivial) fun _ => leaves_pure _

/-! ## Quiet tools -/

section
variable {place : Place}

theorem Generator.quiet_generate {g : Generator} (hg : g.selector = none)
    (seeds : List SyntaxTree) (index : Int) : (g.generate seeds index).Quiet place :=
  quiet_of_leaves (S := fun _ => False) (g.leaves_generate hg seeds index)
    (fun _ hr => by rw [hr]; decide) fun _ h => h.elim

theorem Planner.quiet_plan (p : Planner) (tree : SyntaxTree) : (p.plan tree).Quiet place :=
  quiet_of_leaves (S := fun _ => False) (p.leaves_plan tree) (fun _ hr => by rw [hr]; decide)
    fun _ h => h.elim

theorem Dispatcher.quiet_render (d : Dispatcher) (tree : SyntaxTree) (backend : Backend) :
    (d.render tree backend).Quiet place :=
  quiet_of_leaves (S := fun _ => False) (d.leaves_render tree backend)
    (fun _ hr => by rw [hr.1]; decide) fun _ h => h.elim

theorem Dispatcher.quiet_compile (d : Dispatcher) (variant : Variant) (backend : Backend)
    (hp : place.within EofCompiler.scratchPlace = false) :
    (d.compile variant backend).Quiet place := by
  refine quiet_of_leaves (d.leaves_compile variant backend) ?_ fun q hq => hq ▸ hp
  rintro r ⟨hr | hr, -⟩ <;> rw [hr] <;> decide

theorem quiet_saveVariant (path : Path) (source : Json) : (saveVariant path source).Quiet place :=
  fun o b => (leaves_saveVariant path source o b).quiet (fun _ h => h.elim) fun content hc =>
    (leaves_saveVariant path source o b).files place (.file content) hc

end

end BackendFuzz
