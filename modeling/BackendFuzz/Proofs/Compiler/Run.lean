import BackendFuzz.Compiler.Dispatch
import BackendFuzz.Proofs.Session.Scratch

/-!
# Runs of the compilers

A variant is rendered and compiled by one request each. The output is what the
end of the compiler's run means, and the object-format build leaves no file
behind.
-/

namespace BackendFuzz

namespace Session

def ended (program : String) (timeout : ProcessFault) : ProgramReply → Except Fault Ended
  | .ended e => .ok e
  | .timedOut => .error (.process timeout)
  | .missing => .error (.file ⟨.absent, program⟩)
  | .denied => .error (.file ⟨.denied, program⟩)
  | .interrupted => .error .interrupted

theorem ended_ok_iff {program : String} {timeout : ProcessFault} {reply : ProgramReply} {e : Ended} :
    ended program timeout reply = .ok e ↔ reply = .ended e := by
  cases reply <;> simp [ended]

section
variable (o : Outside) (b : Bench)

theorem run_settled (program : String) (timeout : ProcessFault) (reply : ProgramReply) :
    (settled program (throw (.process timeout)) reply).run o b =
      (ended program timeout reply, b) := by
  cases reply <;> rfl

/-- A result that may be remarked on first. -/
theorem run_remarked {α : Type} (remarkable : Prop) [Decidable remarkable] (component : Component)
    (message : String) (e : Except Fault α) : ∃ events, (do
      if remarkable then debug component message
      ofExcept e : Session α).run o b = (e, { b with events }) := by
  split
  · rw [run_bind_ok (run_debug o b component message)]
    exact ⟨_, run_ofExcept o _ e⟩
  · exact ⟨b.events, run_ofExcept o b e⟩

end

end Session

section
variable {o : Outside} {b b₁ b₂ : Bench} {settings : Settings} {ended : Ended}

theorem Engine.run_call {action : RewriteAction} {fields : Fields}
    (he : o.engine b.asked (Json.object (("action", .text action.name) :: fields)).print =
      .ended ended) : ∃ r, (Engine.call settings action fields).run o b =
        (checkReply action [settings.rewriterPath] ended, { b with asked := b.asked ++ [r] }) := by
  unfold Engine.call
  dsimp only
  rw [Session.run_bind_ok (Session.run_note o b _), Session.run_bind_ok (Session.run_read o _), he]
  exact ⟨_, Session.run_ofExcept o _ _⟩

/-! ## Standard compilers -/

theorem StandardCompiler.run_ensureInstalled {version : String}
    (h : b.memory.installed.contains version = true) :
    (ensureInstalled settings version).run o b = (.ok (), b) := by
  unfold ensureInstalled
  rw [Session.run_bind_ok (Session.run_get o b)]
  simp only [h, ite_true]
  rfl

namespace StandardCompiler

def timeout (settings : Settings) (version : String) : ProcessFault where
  cause := .compilerTimeout version settings.compileTimeout
  command := [executable version, "--standard-json"].map .text

def request (settings : Settings) (source : Json) (version : String) (user : Option Fields) :
    Request :=
  .compiler [executable version, "--standard-json"] settings.compileTimeout
    (input variantFileName source user variantSelection).print

def verdict (settings : Settings) (version : String) (reply : ProgramReply) :
    Except Fault StandardOutput := do
  outputOf (← Session.ended (executable version) (timeout settings version) reply)

theorem verdict_ended (settings : Settings) (version : String) (e : Ended) :
    verdict settings version (.ended e) = outputOf e := rfl

def compileThere (settings : Settings) (source : Json) (version : String) (user : Option Fields) :
    Session StandardOutput := do
  let before ← Session.note (request settings source version user)
  let ended ← Session.settled (executable version) (throw (.process (timeout settings version)))
    ((← read).compiler before version)
  if ended.code ≠ 0 then
    Session.debug .compiler s!"solc {version} exited with code {ended.code}"
  Session.ofExcept (outputOf ended)

theorem compile_eq (source : Json) (version : String) (user : Option Fields) :
    compile settings source version user = (do
      ensureInstalled settings version
      compileThere settings source version user) := rfl

theorem run_compile {version : String}
    (hi : (ensureInstalled settings version).run o b = (.ok (), b₁)) (source : Json)
    (user : Option Fields) : ∃ events, (compile settings source version user).run o b =
      (verdict settings version (o.compiler b₁.asked version),
        { b₁ with asked := b₁.asked ++ [request settings source version user], events }) := by
  rw [compile_eq, Session.run_bind_ok hi]
  unfold compileThere
  rw [Session.run_bind_ok (Session.run_note o b₁ _), Session.run_bind_ok (Session.run_read o _),
    Session.run_bind, Session.run_settled, verdict]
  cases Session.ended (executable version) (timeout settings version)
    (o.compiler b₁.asked version) with
  | error fault => exact ⟨b₁.events, rfl⟩
  | ok ended => exact Session.run_remarked o _ (ended.code ≠ 0) _ _ (outputOf ended)

end StandardCompiler

/-! ## The object-format compiler -/

namespace EofCompiler

def scratchPlace : Place := { absolute := false, names := ["solc-fuzz-eof-scratch"] }

theorem locate_scratch (files : FileStore) : files.locate scratch = .ok scratchPlace :=
  FileStore.locate_name files (by decide) (by decide) (by decide)

theorem locate_sourceFile {files : FileStore} (h : files.at? scratchPlace = some .directory) :
    files.locate sourceFile = .ok (scratchPlace.down "eof_temp.sol") :=
  FileStore.locate_inside h (by decide) (by decide) (by decide) (by decide) (by decide)

def command (settings : Settings) : List String :=
  ["bash", settings.solcWrapperPath, sourceFile.text]

def timeout (settings : Settings) : ProcessFault where
  cause := .eofTimeout settings.compileTimeout
  command := (command settings).map .text

def request (settings : Settings) (text : String) : Request :=
  .eofCompiler (command settings) settings.compileTimeout text settings.solcPath

def verdict (settings : Settings) (reply : ProgramReply) : Except Fault CombinedOutput := do
  outputOf (command settings) (← Session.ended "bash" (timeout settings) reply)

theorem verdict_ended (settings : Settings) (e : Ended) :
    verdict settings (.ended e) = outputOf (command settings) e := rfl

def submit (settings : Settings) (text : String) : Session Ended := do
  Session.writeFile sourceFile (← Session.encoded text)
  let before ← Session.note (request settings text)
  Session.settled "bash" (throw (.process (timeout settings))) ((← read).eofCompiler before)

theorem compile_eq (text : String) : compile settings (.text text) = (do
    let ended ← withScratch scratch (submit settings text)
    if ended.code ≠ 0 then
      Session.debug .eofCompiler s!"EOF compiler exited with code {ended.code}"
    Session.ofExcept (outputOf (command settings) ended)) := rfl

theorem run_submit {text : String} {bytes : ByteArray} {files : FileStore}
    (ht : Text.encode text = .ok bytes)
    (hw : (Session.writeFile sourceFile bytes).run o b = (.ok (), { b with files })) :
    (submit settings text).run o b = (Session.ended "bash" (timeout settings) (o.eofCompiler b.asked),
      { b with files, asked := b.asked ++ [request settings text] }) := by
  unfold submit
  rw [Session.run_bind_ok (Session.run_encoded o b ht), Session.run_bind_ok hw,
    Session.run_bind_ok (Session.run_note o _ _), Session.run_bind_ok (Session.run_read o _)]
  exact Session.run_settled o _ "bash" (timeout settings) _

/-- The end of a compile, once the scratch directory is gone. -/
theorem run_compile_of_submit {text : String}
    (hs : (withScratch scratch (submit settings text)).run o b =
      (Session.ended "bash" (timeout settings) (o.eofCompiler b.asked), b₁)) : ∃ events,
    (compile settings (.text text)).run o b =
      (verdict settings (o.eofCompiler b.asked), { b₁ with events }) := by
  rw [compile_eq, Session.run_bind, hs, verdict]
  cases Session.ended "bash" (timeout settings) (o.eofCompiler b.asked) with
  | error fault => exact ⟨b₁.events, rfl⟩
  | ok ended =>
    exact Session.run_remarked o b₁ (ended.code ≠ 0) _ _ (outputOf (command settings) ended)

theorem run_compile {text : String} {bytes : ByteArray} (hu : b.files.Unused scratchPlace)
    (ht : Text.encode text = .ok bytes) : ∃ events, (compile settings (.text text)).run o b =
      (verdict settings (o.eofCompiler b.asked),
       { b with asked := b.asked ++ [request settings text], events }) := by
  have hnone := FileStore.at?_of_unused hu (by decide) (FileStore.within_self scratchPlace)
  have hsource := FileStore.at?_of_unused hu (by decide)
    (FileStore.within_down scratchPlace "eof_temp.sol")
  let b₁ : Bench := { b with files := b.files.put scratchPlace .directory }
  let b₂ : Bench := { b with
    files := b₁.files.put (scratchPlace.down "eof_temp.sol") (.file bytes) }
  have hwrite : (Session.writeFile sourceFile bytes).run o b₁ = (.ok (), b₂) := by
    refine Session.run_changeFiles o b₁ (by decide) ?_
    have hat : b₁.files.at? (scratchPlace.down "eof_temp.sol") = none := by
      rw [FileStore.at?_put_of_ne _ (Place.down_ne _ _), hsource]
    simp [FileStore.writeFile, locate_sourceFile (FileStore.at?_put_self _ (by decide)), hat,
      ok_bind, pure, Except.pure, b₁]
  have hgone : b₂.files.removeTree scratch = b.files := by
    have hextended : FileStore.Extended scratchPlace b.files b₂.files :=
      ((FileStore.Extended.refl scratchPlace b.files).put hu
        (FileStore.within_self scratchPlace)).put hu (FileStore.within_down _ _)
    exact hextended.removeTree hu (locate_scratch _)
  refine @run_compile_of_submit _ _ { b with asked := b.asked ++ [request settings text] } _ _ ?_
  rw [run_withScratch (by decide) (locate_scratch b.files) hnone]
  dsimp only
  rw [run_submit (b := b₁) ht hwrite]
  show (_, { b with files := b₂.files.removeTree scratch, asked := _ }) = _
  rw [hgone]

end EofCompiler

/-! ## Dispatch -/

namespace Dispatcher

variable {d : Dispatcher} {variant : Variant} {backend : Backend} {source name : Json}

theorem run_render {version : String} {tree : SyntaxTree} {reply : Json}
    (hv : (CompilerVersion.resolve d.settings backend).run o b = (.ok version, b₁))
    (he : o.engine b₁.asked (Json.object [("action", .text RewriteAction.render.name),
      ("ast", tree.unit), ("version", .text version)]).print = .ended ended)
    (hr : Engine.checkReply .render [d.settings.rewriterPath] ended = .ok reply)
    (hs : reply.entry "source" = .ok source) : ∃ r,
    (d.render tree backend).run o b = (.ok source, { b₁ with asked := b₁.asked ++ [r] }) := by
  obtain ⟨r, hcall⟩ := @Engine.run_call o b₁ d.settings ended _ _ he
  rw [hr] at hcall
  unfold render Engine.render
  rw [Session.run_bind_ok hv, Session.run_bind_ok hcall, Session.run_looking, hs]
  exact ⟨r, rfl⟩

/-- The outcome of a variant from the result of its compile, whichever it is. -/
theorem run_compile_standard (hb : backend.isEof = false)
    (hr : (d.render variant.tree backend).run o b = (.ok source, b₁))
    (hn : targetName variant = .ok name) {result : Except Fault StandardOutput}
    (hc : (StandardCompiler.compile d.settings source backend.version d.user).run o b₁ =
      (result, b₂)) : ∃ events, (d.compile variant backend).run o b =
        (do (ofStandard backend (← result) name).mapError .misuse, { b₂ with events }) := by
  have hname : (Session.looking (targetName variant) : Session Json).run o b₁ = (.ok name, b₁) := by
    rw [Session.run_looking, hn]; rfl
  unfold compile
  rw [Session.run_bind_ok hr, Session.run_bind_ok hname]
  simp only [hb, Bool.false_eq_true, ite_false]
  cases result with
  | error fault =>
    rw [Session.run_bind_error hc]
    exact ⟨b₂.events, rfl⟩
  | ok output =>
    rw [Session.run_bind_ok hc]
    exact Session.run_remarked o b₂ (lacksBytecode output name = true) _ _
      ((ofStandard backend output name).mapError .misuse)

theorem run_compile_eof (hb : backend.isEof = true)
    (hr : (d.render variant.tree backend).run o b = (.ok source, b₁))
    (hn : targetName variant = .ok name) {result : Except Fault CombinedOutput}
    (hc : (EofCompiler.compile d.settings source).run o b₁ = (result, b₂)) :
    (d.compile variant backend).run o b =
      (do (ofCombined backend (← result)).mapError .misuse, b₂) := by
  have hname : (Session.looking (targetName variant) : Session Json).run o b₁ = (.ok name, b₁) := by
    rw [Session.run_looking, hn]; rfl
  unfold compile
  rw [Session.run_bind_ok hr, Session.run_bind_ok hname]
  simp only [hb, ite_true]
  cases result with
  | error fault => rw [Session.run_bind_error hc]; rfl
  | ok output => rw [Session.run_bind_ok hc]; exact Session.run_looking o b₂ _

end Dispatcher

end

end BackendFuzz
