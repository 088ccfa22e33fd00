import BackendFuzz.Compiler.Seeds
import BackendFuzz.Proofs.Compiler.Lookups
import BackendFuzz.Proofs.Rewriting.Replies
import BackendFuzz.Proofs.Session.Faults
import BackendFuzz.Proofs.Session.Keeps
import BackendFuzz.Proofs.Session.TextFiles

/-!
# Calls that look for compilers

Loading seeds and compiling variants look for the compiler of a version, once for
each call; other calls at most ask for the version of the object-format build. A
search that fails ends the call with a fault of its own.
-/

namespace BackendFuzz

open Session

/-! ## Requests for compilers -/

namespace Request

def isListing : Request → Bool
  | .installedVersions => true
  | _ => false

def isInstall (version : String) : Request → Bool
  | .install v => v == version
  | _ => false

def isVersionQuery : Request → Bool
  | .eofVersion .. => true
  | _ => false

def RunsCompiler (version : String) (r : Request) : Prop :=
  (∃ input paths, r = .parseSeed input version paths) ∨
  ∃ timeout input,
    r = .compiler [StandardCompiler.executable version, "--standard-json"] timeout input

def isAside : Request → Bool
  | .installedVersions => false
  | .install _ => false
  | .eofVersion .. => false
  | .parseSeed .. => false
  | .compiler .. => false
  | _ => true

theorem RunsCompiler.not_aside {version : String} {r : Request} (h : r.RunsCompiler version) :
    r.isAside = false := by
  rcases h with ⟨input, paths, rfl⟩ | ⟨timeout, input, rfl⟩ <;> rfl

theorem RunsCompiler.not_query {version : String} {r : Request} (h : r.RunsCompiler version) :
    r.isVersionQuery = false := by
  rcases h with ⟨input, paths, rfl⟩ | ⟨timeout, input, rfl⟩ <;> rfl

theorem RunsCompiler.unique {version version' : String} {r : Request}
    (h : r.RunsCompiler version) (h' : r.RunsCompiler version') : version = version' := by
  rcases h with ⟨input, paths, rfl⟩ | ⟨timeout, input, rfl⟩
  · rcases h' with ⟨_, _, h'⟩ | ⟨_, _, h'⟩ <;> cases h'
    rfl
  · rcases h' with ⟨_, _, h'⟩ | ⟨_, _, h'⟩
    · cases h'
    · simp only [compiler.injEq, List.cons.injEq] at h'
      have hexecutable : "/solc/solc-" ++ version = "/solc/solc-" ++ version' := h'.1.1
      simpa [← String.toList_inj] using hexecutable

end Request

/-! ## Tools -/

section
variable {K : Request → Prop} {settings : Settings}

theorem Engine.keeps_call {action : RewriteAction} {fields : Fields}
    (h : K (request settings action fields)) :
    (call settings action fields).Leaves (Bench.Keeps K) := by
  intro o b
  rw [run_call_verdict]
  exact ⟨⟨[_], rfl, by simpa using h⟩, rfl⟩

theorem Engine.keeps_render {tree : SyntaxTree} {version : String}
    (h : K (request settings .render [("ast", tree.unit), ("version", .text version)])) :
    (render settings tree version).Leaves (Bench.Keeps K) :=
  leaves_bind (keeps_call h) fun _ => leaves_looking _

theorem EofCompiler.keeps_compile (h : ∀ text, K (request settings text)) (source : Json) :
    (compile settings source).Leaves (Bench.Keeps K) := by
  refine leaves_bind (keeps_withScratch ?_) fun ended => ?_
  · cases source with
    | text text =>
      exact leaves_bind (leaves_encoded _) fun _ => leaves_bind (keeps_changeFiles _ _) fun _ =>
        leaves_bind (keeps_note (h text)) fun _ => leaves_bind leaves_read fun _ =>
          leaves_settled _ (leaves_throw _) _
    | _ => exact leaves_throw _
  · exact keeps_remarked _ _ (leaves_ofExcept _)

namespace StandardCompiler

theorem keeps_compileThere {version : String} {user : Option Fields}
    (h : ∀ source, K (request settings source version user)) (source : Json) :
    (compileThere settings source version user).Leaves (Bench.Keeps K) :=
  leaves_bind (keeps_note (h source)) fun _ => leaves_bind leaves_read fun _ =>
    leaves_bind (leaves_settled _ (leaves_throw _) _) fun _ =>
      keeps_remarked _ _ (leaves_ofExcept _)

end StandardCompiler

theorem keeps_loadSeed {version : String} (h : ∀ input paths, K (.parseSeed input version paths))
    (path : Path) (user : Option Fields) :
    (loadSeed path version user).Leaves (Bench.Keeps K) := by
  refine leaves_bind (keeps_isFile path) fun there => ?_
  split
  · exact leaves_throw_bind _ _
  · refine leaves_bind (keeps_readTextFile path) fun source =>
      leaves_bind (keeps_note (h _ _)) fun _ => leaves_bind leaves_read fun _ => ?_
    split
    · exact leaves_throw _
    · exact leaves_bind (leaves_ofExcept _) fun _ =>
        leaves_bind (keeps_debug _ _) fun _ => leaves_pure _

end

/-! ## Calls -/

namespace Lookup

inductive Call where
  | seeds (paths : List Path) (version : String) (user : Option Fields)
  | rendering (tree : SyntaxTree) (backend : Backend)
  | compiling (variant : Variant) (backend : Backend)

namespace Call

def made (d : Dispatcher) : Call → Session Unit
  | seeds paths version user => do
    let _ ← loadSeeds d.settings paths version user
  | rendering tree backend => do
    let _ ← d.render tree backend
  | compiling variant backend => do
    let _ ← d.compile variant backend

def version? : Call → Option String
  | seeds _ version _ => some version
  | rendering _ _ => none
  | compiling _ backend => if backend.isEof then none else some backend.version

end Call

/-! ## Refusals -/

/-- The faults with which the search for a compiler ends: it is not there, or cannot be installed. -/
def isRefusal : Fault → Bool
  | .configuration (.compilerMissing _) => true
  | .installation _ => true
  | _ => false

def refuses : Except Fault Unit → Bool
  | .error fault => isRefusal fault
  | .ok () => false

/-! ## Faults of other causes -/

def Other (fault : Fault) : Prop := isRefusal fault = false

section
variable {settings : Settings} {o : Outside}

theorem other_of_unread (onSyntax : Json.SyntaxFault → Fault) (h : ∀ fault, Other (onSyntax fault))
    (cause : Json.ParseFault) : Other (Fault.ofParse onSyntax cause) := by
  cases cause with
  | malformed fault => exact h fault
  | tooLong digits => rfl
  | tooDeep nest => rfl

theorem other_misuse {α : Type} (e : Except Misuse α) : ErrorWithin Other (e.mapError Fault.misuse) :=
  errorWithin_mapError (fun _ => by rfl) e

theorem other_verdict (action : RewriteAction) (reply : ProgramReply) :
    ErrorWithin Other (Engine.verdict settings action reply) := by
  cases reply with
  | ended ended =>
    apply errorWithin_bind (errorWithin_mapError (other_of_unread _ fun _ => by rfl) _)
    intro reply
    apply errorWithin_bind (other_misuse _)
    intro refused
    split
    · apply errorWithin_bind (other_misuse _)
      intro error
      apply errorWithin_bind (other_misuse _)
      intro fault
      exact errorWithin_error rfl
    · split
      · exact errorWithin_error rfl
      · exact errorWithin_ok reply
  | _ => exact errorWithin_error rfl

theorem other_render (tree : SyntaxTree) (version : String) :
    (Engine.render settings tree version).FaultsWithin Other o := by
  refine within_bind (fun b fault b' h => ?_) fun reply => within_ofExcept (other_misuse _)
  rw [Engine.run_call_verdict] at h
  exact other_verdict .render _ fault (congrArg Prod.fst h)

theorem other_outputOf (ended : Ended) : ErrorWithin Other (StandardCompiler.outputOf ended) := by
  unfold StandardCompiler.outputOf
  split
  · exact errorWithin_ok _
  · apply errorWithin_bind (errorWithin_mapError (other_of_unread _ fun _ => by rfl) _)
    exact fun output => other_misuse _

theorem other_compileThere (source : Json) (version : String) (user : Option Fields) :
    (StandardCompiler.compileThere settings source version user).FaultsWithin Other o := by
  refine within_bind (within_note _) fun before => within_bind within_read fun outside =>
    within_bind ?_ fun ended => ?_
  · cases outside.compiler before version with
    | ended ended => exact within_pure ended
    | _ => exact within_throw rfl
  · dsimp only
    split
    · exact within_bind (within_modify _) fun _ => within_ofExcept (other_outputOf ended)
    · exact within_ofExcept (other_outputOf ended)

theorem other_treeOfOutput (path : Path) (source : String) (output : Json) :
    ErrorWithin Other (treeOfOutput path source output) := by
  apply errorWithin_bind (other_misuse _)
  intro sources
  apply errorWithin_bind (other_misuse _)
  intro count
  split
  · exact errorWithin_error rfl
  · exact other_misuse _

theorem other_readTextFile (path : Path) : (readTextFile path).FaultsWithin Other o := by
  intro b fault b' h
  obtain ⟨r, hreads, hrun⟩ := run_readTextFile path o b
  cases hrun.symm.trans h
  cases hreads <;> rfl

theorem other_isFile (path : Path) : (isFile path).FaultsWithin Other o := by
  unfold isFile
  split
  · exact within_pure _
  · refine within_bind within_get fun b => ?_
    split
    · exact within_pure _
    · exact within_throw rfl

theorem other_loadSeed (path : Path) (version : String) (user : Option Fields) :
    (loadSeed path version user).FaultsWithin Other o := by
  refine within_bind (other_isFile path) fun there => ?_
  split
  · exact within_throw_bind (by rfl) _
  · refine within_bind (other_readTextFile path) fun source => within_bind (within_note _) fun _ =>
      within_bind within_read fun outside => ?_
    split
    · exact within_throw rfl
    · exact within_bind (within_ofExcept (other_treeOfOutput _ _ _)) fun tree =>
        within_bind (within_modify _) fun _ => within_pure tree

end

/-! ## Turns -/

/-- Before it makes sure of a compiler, a call may ask for the version of the object-format build
and for a source. -/
def Prepares (settings : Settings) (o : Outside) (b b' : Bench) : Prop :=
  ∃ b₁, (b₁ = b ∨ ∃ r, CompilerVersion.Queried settings settings.solcPath o b r b₁) ∧
    b₁.Keeps (·.isAside = true) b'

inductive Turn (settings : Settings) (o : Outside) (b : Bench) :
    Option String → Except Fault Unit → Bench → Prop
  | aside {r : Except Fault Unit} {b' : Bench} (hprepares : Prepares settings o b b') :
    Turn settings o b none r b'
  | short {version : String} {fault : Fault} {b' : Bench} (hprepares : Prepares settings o b b')
    (hother : Other fault) : Turn settings o b (some version) (.error fault) b'
  | refused {version : String} {fault : Fault} {b₁ b' : Bench} (hprepares : Prepares settings o b b₁)
    (hensured : StandardCompiler.Ensured settings version o b₁ (.error fault) b') :
    Turn settings o b (some version) (.error fault) b'
  | there {version : String} {r : Except Fault Unit} {b₁ b₂ b' : Bench}
    (hprepares : Prepares settings o b b₁)
    (hensured : StandardCompiler.Ensured settings version o b₁ (.ok ()) b₂)
    (hkeeps : b₂.Keeps (·.RunsCompiler version) b') (hother : ∀ fault, r = .error fault → Other fault) :
    Turn settings o b (some version) r b'

section
variable {d : Dispatcher} {o : Outside} {b b' : Bench} {r : Except Fault Unit}

theorem prepares_of_keeps {settings : Settings} (h : b.Keeps (·.isAside = true) b') :
    Prepares settings o b b' :=
  ⟨b, .inl rfl, h⟩

theorem Prepares.keeps {settings : Settings} {b₁ : Bench} (h : Prepares settings o b b₁)
    (hkeeps : b₁.Keeps (·.isAside = true) b') : Prepares settings o b b' := by
  obtain ⟨b₂, hqueried, h⟩ := h
  exact ⟨b₂, hqueried, trans_of (Bench.Keeps (·.isAside = true)) h hkeeps⟩

theorem run_discard {α : Type} (s : Session α) : (do
    let _ ← s
    return () : Session Unit).run o b = ((s.run o b).1.map fun _ => (), (s.run o b).2) := by
  rw [run_bind]
  rcases s.run o b with ⟨fault | a, b'⟩ <;> rfl

theorem aside_render {settings : Settings} (tree : SyntaxTree) (version : String) :
    (Engine.render settings tree version).Leaves (Bench.Keeps (·.isAside = true)) :=
  Engine.keeps_render rfl

theorem prepares_render (tree : SyntaxTree) (backend : Backend) :
    Prepares d.settings o b ((d.render tree backend).run o b).2 := by
  unfold Dispatcher.render CompilerVersion.resolve
  split
  · rcases hquery : (CompilerVersion.query d.settings d.settings.solcPath).run o b with ⟨x, b₁⟩
    have hprepares : Prepares d.settings o b b₁ :=
      ⟨b₁, .inr ⟨x, CompilerVersion.queried hquery⟩, refl_of (Bench.Keeps (·.isAside = true)) b₁⟩
    cases x with
    | error fault =>
      rw [run_bind_error hquery]
      exact hprepares
    | ok version =>
      rw [run_bind_ok hquery]
      exact hprepares.keeps (aside_render tree version o b₁)
  · rw [pure_bind]
    exact prepares_of_keeps (aside_render tree backend.version o b)

/-- A standard backend's source is rendered for its own version. -/
theorem render_standard {backend : Backend} (hb : backend.isEof = false) (tree : SyntaxTree) :
    d.render tree backend = Engine.render d.settings tree backend.version := by
  unfold Dispatcher.render CompilerVersion.resolve
  rw [hb, if_neg Bool.false_ne_true, pure_bind]

theorem turn_seeds (paths : List Path) (version : String) (user : Option Fields)
    (h : ((Call.seeds paths version user).made d).run o b = (r, b')) :
    Turn d.settings o b (some version) r b' := by
  have hrefl : Prepares d.settings o b b :=
    prepares_of_keeps (refl_of (Bench.Keeps (·.isAside = true)) b)
  rw [Call.made, run_discard] at h
  cases h
  unfold loadSeeds
  rcases hensure : (StandardCompiler.ensureInstalled d.settings version).run o b with ⟨x, b₁⟩
  have hensured := StandardCompiler.ensured hensure
  cases x with
  | error fault =>
    rw [run_bind_error hensure]
    exact .refused hrefl hensured
  | ok _ =>
    rw [run_bind_ok hensure]
    have hseed : ∀ input paths, (Request.parseSeed input version paths).RunsCompiler version :=
      fun input paths => Or.inl ⟨input, paths, rfl⟩
    refine .there hrefl hensured
      (leaves_mapM (fun path => keeps_loadSeed hseed path user) paths o b₁) ?_
    intro fault hfault
    rcases hrun : (paths.mapM fun path => loadSeed path version user).run o b₁ with ⟨x, b₂⟩
    rw [hrun] at hfault
    cases x with
    | ok trees => cases hfault
    | error fault' =>
      cases hfault
      exact within_mapM (fun path => other_loadSeed path version user) paths b₁ fault b₂ hrun

theorem turn_compiling_eof (variant : Variant) {backend : Backend} (hb : backend.isEof = true)
    (h : ((Call.compiling variant backend).made d).run o b = (r, b')) :
    Turn d.settings o b none r b' := by
  rw [Call.made, run_discard] at h
  cases h
  have hprepares := prepares_render (d := d) (o := o) (b := b) variant.tree backend
  unfold Dispatcher.compile
  rcases hrender : (d.render variant.tree backend).run o b with ⟨fault | source, b₁⟩
  · rw [hrender] at hprepares
    rw [run_bind_error hrender]
    exact .aside hprepares
  · rw [hrender] at hprepares
    rw [run_bind_ok hrender]
    refine .aside (hprepares.keeps ?_)
    refine leaves_bind (leaves_looking _) (fun name => ?_) o b₁
    simp only [hb, if_true]
    exact leaves_bind (EofCompiler.keeps_compile (fun _ => rfl) source) fun _ => leaves_looking _

def outcomeThere (d : Dispatcher) (backend : Backend) (source name : Json) :
    Session CompileOutcome := do
  let output ← StandardCompiler.compileThere d.settings source backend.version d.user
  if Dispatcher.lacksBytecode output name then
    debug .dispatcher
      s!"Bytecode not found for contract {name.display}. Version: {backend.version}"
  looking (Dispatcher.ofStandard backend output name)

theorem compile_standard_eq (variant : Variant) {backend : Backend} (hb : backend.isEof = false) :
    d.compile variant backend = (do
      let source ← Engine.render d.settings variant.tree backend.version
      let name ← looking (Dispatcher.targetName variant)
      StandardCompiler.ensureInstalled d.settings backend.version
      outcomeThere d backend source name) := by
  unfold Dispatcher.compile
  rw [render_standard hb]
  simp only [hb, Bool.false_eq_true, if_false, StandardCompiler.compile_eq, bind_assoc]
  rfl

theorem keeps_outcomeThere {K : Request → Prop} {backend : Backend}
    (h : ∀ source, K (StandardCompiler.request d.settings source backend.version d.user))
    (source name : Json) : (outcomeThere d backend source name).Leaves (Bench.Keeps K) :=
  leaves_bind (StandardCompiler.keeps_compileThere h source) fun _ =>
    keeps_remarked _ _ (leaves_looking _)

theorem other_outcomeThere (backend : Backend) (source name : Json) :
    (outcomeThere d backend source name).FaultsWithin Other o := by
  refine within_bind (other_compileThere source backend.version d.user) fun output => ?_
  dsimp only
  split
  · exact within_bind (within_modify _) fun _ => within_ofExcept (other_misuse _)
  · exact within_ofExcept (other_misuse _)

theorem turn_compiling_standard (variant : Variant) {backend : Backend} (hb : backend.isEof = false)
    (h : ((Call.compiling variant backend).made d).run o b = (r, b')) :
    Turn d.settings o b (some backend.version) r b' := by
  rw [Call.made, run_discard] at h
  cases h
  rw [compile_standard_eq variant hb]
  have hkeeps := @aside_render d.settings variant.tree backend.version o b
  rcases hrender : (Engine.render d.settings variant.tree backend.version).run o b with ⟨x, b₁⟩
  rw [hrender] at hkeeps
  cases x with
  | error fault =>
    rw [run_bind_error hrender]
    exact .short (prepares_of_keeps hkeeps) (other_render _ _ b fault b₁ hrender)
  | ok source =>
    rw [run_bind_ok hrender, run_bind, run_looking]
    cases Dispatcher.targetName variant with
    | error cause => exact .short (prepares_of_keeps hkeeps) rfl
    | ok name =>
      dsimp only [mapError_ok]
      rcases hensure : (StandardCompiler.ensureInstalled d.settings backend.version).run o b₁ with
        ⟨x, b₂⟩
      have hensured := StandardCompiler.ensured hensure
      cases x with
      | error fault =>
        rw [run_bind_error hensure]
        exact .refused (prepares_of_keeps hkeeps) hensured
      | ok _ =>
        rw [run_bind_ok hensure]
        have hcompiler : ∀ source,
            (StandardCompiler.request d.settings source backend.version d.user).RunsCompiler
              backend.version := fun _ => Or.inr ⟨_, _, rfl⟩
        refine .there (prepares_of_keeps hkeeps) hensured
          (keeps_outcomeThere hcompiler source name o b₂) ?_
        intro fault hfault
        rcases hrun : (outcomeThere d backend source name).run o b₂ with ⟨x, b₃⟩
        rw [hrun] at hfault
        cases x with
        | ok outcome => cases hfault
        | error fault' =>
          cases hfault
          exact other_outcomeThere backend source name b₂ fault b₃ hrun

theorem Call.turn (c : Call) (h : (c.made d).run o b = (r, b')) :
    Turn d.settings o b c.version? r b' := by
  cases c with
  | seeds paths version user => exact turn_seeds paths version user h
  | rendering tree backend =>
    rw [Call.made, run_discard] at h
    cases h
    exact .aside (prepares_render tree backend)
  | compiling variant backend =>
    cases hb : backend.isEof with
    | true =>
      rw [Call.version?, if_pos hb]
      exact turn_compiling_eof variant hb h
    | false =>
      rw [Call.version?, if_neg (by simp [hb])]
      exact turn_compiling_standard variant hb h

end

end Lookup

end BackendFuzz
