import BackendFuzz.Proofs.Campaign.Tools

/-!
# What a compile comes to

A compile faults before it asks for a compiler, or it asks for one last of all,
and then its outcome is what the compiler's reply comes to.
-/

namespace BackendFuzz

open Session

/-! ## The request of a compile -/

/-- A request is for one compile of a source by a backend: through the wrapper of the object-format
compiler, or by the program of the backend's version. -/
inductive Backend.Compiles (settings : Settings) (source : Json) : Backend → Request → Prop
  | eof {backend : Backend} (h : backend.version = "eof") {text : String} (hs : source = .text text) :
    Compiles settings source backend (.eofCompiler
      ["bash", settings.solcWrapperPath, EofCompiler.sourceFile.text] settings.compileTimeout text
      settings.solcPath)
  | standard {backend : Backend} (h : backend.version ≠ "eof") (user : Option Fields) :
    Compiles settings source backend (.compiler
      [StandardCompiler.executable backend.version, "--standard-json"] settings.compileTimeout
      (StandardCompiler.input variantFileName source user StandardCompiler.variantSelection).print)

theorem Backend.isEof_iff (backend : Backend) : backend.isEof = true ↔ backend.version = "eof" := by
  simp [isEof, eofVersion]

def Backend.reply (backend : Backend) (o : Outside) (asked : List Request) : ProgramReply :=
  if backend.isEof then o.eofCompiler asked else o.compiler asked backend.version

/-! ## The compilers -/

section
variable (o : Outside) (b : Bench)

theorem run_withScratch_cases {α : Type} (directory : Path) (body : Session α) :
    let made := (changeFiles directory FileStore.makeDirectory).run o b
    (∃ fault, made = (.error fault, b) ∧ (withScratch directory body).run o b = (.error fault, b)) ∨
    ∃ files, made = (.ok (), { b with files }) ∧ (withScratch directory body).run o b =
      let ended := body.run o { b with files }
      (ended.1, { ended.2 with files := ended.2.files.removeTree directory }) := by
  unfold withScratch
  rcases run_changeFiles_cases o b directory FileStore.makeDirectory with
    ⟨fault, hr, -⟩ | ⟨files, -, hr⟩
  · exact Or.inl ⟨fault, hr, run_bind_error hr _⟩
  · refine Or.inr ⟨files, hr, ?_⟩
    rw [run_bind_ok hr, run_ensuring]

theorem StandardCompiler.run_cases (settings : Settings) (source : Json) (version : String)
    (user : Option Fields) : ∃ preparing, (∀ r ∈ preparing, r.role = .other) ∧
      ((∃ fault b', (ensureInstalled settings version).run o b = (.error fault, b') ∧
        (compile settings source version user).run o b = (.error fault, b') ∧
        b'.asked = b.asked ++ preparing) ∨
      ∃ b', (compile settings source version user).run o b =
          (verdict settings version (o.compiler (b.asked ++ preparing) version), b') ∧
        b'.asked = b.asked ++ preparing ++ [request settings source version user]) := by
  rcases hi : (ensureInstalled settings version).run o b with ⟨result, b₁⟩
  obtain ⟨preparing, hasked, hroles⟩ :=
    ((leaves_ensureInstalled settings version (F := fun _ _ => True)).of_run hi).asked
  refine ⟨preparing, fun r hr => (hroles r hr).1, ?_⟩
  cases result with
  | error fault => exact Or.inl ⟨fault, b₁, rfl, run_bind_error hi _, hasked⟩
  | ok _ =>
    obtain ⟨events, hrun⟩ := run_compile hi source user
    rw [hasked] at hrun
    exact Or.inr ⟨_, hrun, rfl⟩

namespace EofCompiler

/-- What keeps the compiler from being asked for a source: it is no text, it has no form in bytes, or
its directory or file cannot be made. -/
inductive Unsubmitted (source : Json) : Fault → Prop
  | directory {fault : Fault}
    (h : (changeFiles scratch FileStore.makeDirectory).run o b = (.error fault, b)) :
    Unsubmitted source fault
  | content (h : ∀ text, source ≠ .text text) : Unsubmitted source (.misuse (.content source.kind))
  | encoding {text : String} {lone : Text.LoneRun} (h : Text.encode text = .error lone)
    (hs : source = .text text) : Unsubmitted source (.unencodable lone)
  | file {files : FileStore} {bytes : ByteArray} {fault : Fault}
    (made : (changeFiles scratch FileStore.makeDirectory).run o b = (.ok (), { b with files }))
    (h : (writeFile sourceFile bytes).run o { b with files } = (.error fault, { b with files })) :
    Unsubmitted source fault

variable (settings : Settings)

theorem submit_cases (text : String) :
    (∃ fault, (submit settings text).run o b = (.error fault, b) ∧
      ((∃ lone, Text.encode text = .error lone ∧ fault = .unencodable lone) ∨
        ∃ bytes, (writeFile sourceFile bytes).run o b = (.error fault, b))) ∨
    ∃ files, (submit settings text).run o b =
      (Session.ended "bash" (timeout settings) (o.eofCompiler b.asked),
        { b with files, asked := b.asked ++ [request settings text] }) := by
  cases ht : Text.encode text with
  | error lone =>
    have hencoded : (encoded text).run o b = (.error (.unencodable lone), b) := by
      rw [encoded, run_ofExcept, ht]
      rfl
    exact Or.inl ⟨.unencodable lone, run_bind_error hencoded _, Or.inl ⟨lone, rfl, rfl⟩⟩
  | ok bytes =>
    rcases run_changeFiles_cases o b sourceFile fun files path => files.writeFile path bytes with
      ⟨fault, hw, -⟩ | ⟨files, -, hw⟩
    · refine Or.inl ⟨fault, ?_, Or.inr ⟨bytes, hw⟩⟩
      rw [submit, run_bind_ok (run_encoded o b ht)]
      exact run_bind_error hw _
    · exact Or.inr ⟨files, run_submit ht hw⟩

theorem run_cases (source : Json) :
    (∃ fault b', Unsubmitted o b source fault ∧
      (compile settings source).run o b = (.error fault, b') ∧ b'.asked = b.asked) ∨
    ∃ text b', source = .text text ∧
      (compile settings source).run o b = (verdict settings (o.eofCompiler b.asked), b') ∧
      b'.asked = b.asked ++ [request settings text] := by
  cases source with
  | text text =>
    rcases run_withScratch_cases o b scratch (submit settings text) with
      ⟨fault, hmade, hs⟩ | ⟨files, hmade, hs⟩
    · exact Or.inl ⟨fault, b, .directory hmade, run_bind_error hs _, rfl⟩
    · rcases submit_cases o { b with files } settings text with
        ⟨fault, hr, ⟨lone, hencode, rfl⟩ | ⟨bytes, hwrite⟩⟩ | ⟨files', hr⟩
      · rw [hr] at hs
        exact Or.inl ⟨_, _, .encoding hencode rfl, run_bind_error hs _, rfl⟩
      · rw [hr] at hs
        exact Or.inl ⟨fault, _, .file hmade hwrite, run_bind_error hs _, rfl⟩
      · rw [hr] at hs
        obtain ⟨events, hrun⟩ := run_compile_of_submit hs
        exact Or.inr ⟨text, _, rfl, hrun, rfl⟩
  | _ =>
    refine Or.inl ?_
    rcases run_withScratch_cases o b scratch (throw (.misuse (.content _)) : Session Ended) with
      ⟨fault, hmade, hs⟩ | ⟨files, -, hs⟩
    · exact ⟨fault, b, .directory hmade, run_bind_error hs _, rfl⟩
    · exact ⟨_, _, .content nofun, run_bind_error hs _, rfl⟩

end EofCompiler

/-! ## Dispatch -/

namespace Dispatcher

variable (d : Dispatcher) (variant : Variant) (backend : Backend)

def verdict (name : Json) (reply : ProgramReply) : Except Fault CompileOutcome :=
  if backend.isEof then do
    (ofCombined backend (← EofCompiler.verdict d.settings reply)).mapError .misuse
  else do
    (ofStandard backend (← StandardCompiler.verdict d.settings backend.version reply) name).mapError
      .misuse

/-- What keeps a compile from asking for the compiler: the variant is not rendered or has no name to
look for, a standard compiler cannot be made sure of, or the source cannot be handed over. -/
inductive Unprepared : Fault → Prop
  | rendering {fault : Fault} {rendered : Bench}
    (h : (d.render variant.tree backend).run o b = (.error fault, rendered)) : Unprepared fault
  | naming {cause : Misuse} (h : targetName variant = .error cause) : Unprepared (.misuse cause)
  | installing {source : Json} {rendered b' : Bench} {fault : Fault}
    (render : (d.render variant.tree backend).run o b = (.ok source, rendered))
    (h : (StandardCompiler.ensureInstalled d.settings backend.version).run o rendered =
      (.error fault, b')) (standard : backend.isEof = false) : Unprepared fault
  | submitting {source : Json} {rendered : Bench} {fault : Fault}
    (render : (d.render variant.tree backend).run o b = (.ok source, rendered))
    (h : EofCompiler.Unsubmitted o rendered source fault) (eof : backend.isEof = true) :
    Unprepared fault

/-- How a compile ends: with a fault before any compiler is asked for, or behind the one request for
a compile with what the reply comes to. -/
inductive Ends : Except Fault CompileOutcome → Bench → Prop
  | unasked {fault : Fault} {b' : Bench} {preparing : List Request}
    (unprepared : d.Unprepared o b variant backend fault)
    (asked : b'.asked = b.asked ++ preparing) (roles : ∀ r ∈ preparing, r.role = .other) :
    Ends (.error fault) b'
  | replied {source name : Json} {rendered b' : Bench} {preparing : List Request}
    {request : Request} (render : (d.render variant.tree backend).run o b = (.ok source, rendered))
    (target : targetName variant = .ok name) (roles : ∀ r ∈ preparing, r.role = .other)
    (compiles : backend.Compiles d.settings source request)
    (asked : b'.asked = b.asked ++ preparing ++ [request]) :
    Ends (d.verdict backend name (backend.reply o (b.asked ++ preparing))) b'

variable {o b d variant backend}

theorem ends_run {result : Except Fault CompileOutcome} {b' : Bench}
    (h : (d.compile variant backend).run o b = (result, b')) :
    d.Ends o b variant backend result b' := by
  rcases hr : (d.render variant.tree backend).run o b with ⟨rendering, rendered⟩
  obtain ⟨first, hfirst, hroles⟩ :=
    ((d.leaves_render variant.tree backend (F := fun _ _ => True)).of_run hr).asked
  have hother : ∀ r ∈ first, r.role = .other := fun r hr => (hroles r hr).1
  cases rendering with
  | error fault =>
    rw [compile, run_bind_error hr] at h
    cases h
    exact .unasked (.rendering hr) hfirst hother
  | ok source =>
    cases hn : targetName variant with
    | error cause =>
      have hname : (looking (targetName variant) : Session Json).run o rendered =
          (.error (.misuse cause), rendered) := by rw [run_looking, hn]; rfl
      rw [compile, run_bind_ok hr, run_bind_error hname] at h
      cases h
      exact .unasked (.naming hn) hfirst hother
    | ok name =>
      cases he : backend.isEof with
      | true =>
        rcases EofCompiler.run_cases o rendered d.settings source with
          ⟨fault, b₁, hkept, hc, hasked⟩ | ⟨text, b₁, rfl, hc, hasked⟩
        · rw [run_compile_eof he hr hn hc, error_bind] at h
          cases h
          exact .unasked (.submitting hr hkept he) (hasked.trans hfirst) hother
        · rw [run_compile_eof he hr hn hc] at h
          obtain ⟨rfl, rfl⟩ := Prod.mk.inj h
          have hends : d.Ends o b variant backend _ b₁ := .replied hr hn hother
            (.eof (backend.isEof_iff.mp he) rfl) (by rw [hasked, hfirst]; rfl)
          simpa only [verdict, Backend.reply, he, ite_true, ← hfirst] using hends
      | false =>
        obtain ⟨second, hsecond, hcases⟩ :=
          StandardCompiler.run_cases o rendered d.settings source backend.version d.user
        have hboth : ∀ r ∈ first ++ second, r.role = .other := List.forall_mem_append.mpr
          ⟨hother, hsecond⟩
        rcases hcases with ⟨fault, b₁, hi, hc, hasked⟩ | ⟨b₁, hc, hasked⟩
        · obtain ⟨events, hrun⟩ := run_compile_standard he hr hn hc
          rw [hrun, error_bind] at h
          cases h
          exact .unasked (.installing hr hi he) (by rw [hasked, hfirst, List.append_assoc]) hboth
        · obtain ⟨events, hrun⟩ := run_compile_standard he hr hn hc
          rw [hrun] at h
          obtain ⟨rfl, rfl⟩ := Prod.mk.inj h
          have hends : d.Ends o b variant backend _ { b₁ with events } := .replied hr hn hboth
            (.standard (mt backend.isEof_iff.mpr (by simp [he])) d.user)
            (by rw [hasked, hfirst, List.append_assoc b.asked]; rfl)
          rw [hfirst, List.append_assoc]
          simpa only [verdict, Backend.reply, he, Bool.false_eq_true, ite_false] using hends

end Dispatcher

end

end BackendFuzz
