import BackendFuzz.Proofs.Campaign.Compiles
import BackendFuzz.Proofs.Compiler.Selection
import BackendFuzz.Proofs.Json.Overlong

/-!
# Rejected variants

A compiler rejects a source by its exit code, by what is on its error stream, or
by the errors that it lists. A rejection is a failed outcome, and only a
rejection is: a diagnostic of another severity fails nothing, and a compiler that
gives no answer ends the compile with a fault.
-/

namespace BackendFuzz

namespace Json

/-! ## Lines of diagnostics -/

theorem occursIn_iff (part cs : List Char) : occursIn part cs = true ↔ part <:+: cs := by
  induction cs with
  | nil => simp [occursIn]
  | cons c cs ih => simp [occursIn, List.infix_cons_iff, ih]

def joined (line : Json × Nat) : Except Misuse String :=
  match line.1 with
  | text s => .ok s
  | v => .error (.joined line.2 v.kind)

theorem joined_ok_iff {line : Json × Nat} {s : String} : joined line = .ok s ↔ line.1 = text s := by
  obtain ⟨v, i⟩ := line
  cases v <;> simp [joined]

theorem joinLines_eq (lines : List Json) : joinLines lines = do
    return "\n".intercalate (← lines.zipIdx.mapM joined) := rfl

theorem joinLines_ok_iff {lines : List Json} {s : String} : joinLines lines = .ok s ↔
    ∃ texts : List String, lines = texts.map text ∧ s = "\n".intercalate texts := by
  have hlines : ∀ texts, lines.zipIdx.mapM joined = .ok texts ↔ lines = texts.map text := by
    intro texts
    rw [mapM_ok_iff]
    simp only [joined_ok_iff]
    rw [← List.forall₂_map_left_iff (f := Prod.fst) (R := fun v s => v = text s),
      List.zipIdx_map_fst, ← List.forall₂_map_right_iff (f := text) (R := (· = ·)),
      List.forall₂_eq_eq_eq]
  rw [joinLines_eq]
  constructor
  · intro h
    obtain ⟨texts, htexts, h⟩ := bind_ok_inv h
    cases h
    exact ⟨texts, (hlines texts).mp htexts, rfl⟩
  · rintro ⟨texts, htexts, rfl⟩
    rw [(hlines texts).mpr htexts]
    rfl

end Json

/-! ## Listed diagnostics -/

namespace StandardOutput

def Lists (stdout : String) (entries : List Json) : Prop :=
  ∃ output listed, Json.parse stdout = .ok output ∧
    output.fieldOr "errors" (.array []) = .ok listed ∧ listed.items = .ok entries

def IsErrorEntry (entry : Json) : Prop :=
  ∃ fields, entry = .object fields ∧ Fields.get? fields "severity" = some (.text "error")

def errorMessage? : Json → Option Json
  | .object fields =>
    if (Fields.get? fields "severity").any (·.isText "error") then
      some ((Fields.get? fields "formattedMessage").getD
        ((Fields.get? fields "message").getD (.text "")))
    else none
  | _ => none

theorem errorMessage?_isSome_iff (entry : Json) :
    (errorMessage? entry).isSome ↔ IsErrorEntry entry := by
  cases entry with
  | object fields =>
    have hfields : IsErrorEntry (.object fields) ↔
        Fields.get? fields "severity" = some (.text "error") := by simp [IsErrorEntry]
    rw [hfields, errorMessage?]
    cases Fields.get? fields "severity" with
    | none => simp
    | some v => cases v <;> simp [Json.isText]
  | _ => simp [errorMessage?, IsErrorEntry]

theorem diagnostics_ok_iff {entries messages : List Json} : diagnostics entries = .ok messages ↔
    (∀ entry ∈ entries, ∃ fields, entry = .object fields) ∧
      messages = entries.filterMap errorMessage? := by
  induction entries generalizing messages with
  | nil => simp [diagnostics, eq_comm]
  | cons entry entries ih =>
    rw [List.forall_mem_cons, List.filterMap_cons]
    cases entry with
    | object fields =>
      have herror : isError (.object fields) =
          .ok ((Fields.get? fields "severity").any (·.isText "error")) := by
        simp only [isError, Json.field, Json.fieldOr, Json.field?, Json.fieldsFor, ok_bind, pure,
          Except.pure]
        cases Fields.get? fields "severity" <;> rfl
      have hmessage : diagnostic (.object fields) =
          .ok ((Fields.get? fields "formattedMessage").getD
            ((Fields.get? fields "message").getD (.text ""))) := rfl
      rw [diagnostics, herror, ok_bind, errorMessage?]
      split
      · rw [hmessage, ok_bind]
        constructor
        · intro h
          obtain ⟨rest, hrest, h⟩ := bind_ok_inv h
          cases h
          obtain ⟨hobjects, rfl⟩ := ih.mp hrest
          exact ⟨⟨⟨fields, rfl⟩, hobjects⟩, rfl⟩
        · rintro ⟨⟨-, hobjects⟩, rfl⟩
          rw [ih.mpr ⟨hobjects, rfl⟩]
          rfl
      · exact ih.trans (and_congr_left fun _ => (and_iff_right ⟨fields, rfl⟩).symm)
    | _ =>
      constructor
      · intro h
        cases h
      · rintro ⟨⟨⟨_, ⟨⟩⟩, -⟩, -⟩

theorem Lists.unique {stdout : String} {entries entries' : List Json} (h : Lists stdout entries)
    (h' : Lists stdout entries') : entries = entries' := by
  obtain ⟨output, listed, hparse, herrors, hitems⟩ := h
  obtain ⟨output', listed', hparse', herrors', hitems'⟩ := h'
  rw [hparse, Except.ok.injEq] at hparse'
  rw [← hparse', herrors, Except.ok.injEq] at herrors'
  rw [← herrors', hitems, Except.ok.injEq] at hitems'
  exact hitems'

theorem parse_errors {stdout : String} {output : StandardOutput} (h : parse stdout = .ok output) :
    ∃ entries, Lists stdout entries ∧ (∀ entry ∈ entries, ∃ fields, entry = .object fields) ∧
      output.errors = entries.filterMap errorMessage? := by
  obtain ⟨printed, hprinted, h⟩ := bind_ok_inv h
  obtain ⟨listed, hlisted, h⟩ := bind_ok_inv (mapError_ok_iff.mp h)
  obtain ⟨entries, hentries, h⟩ := bind_ok_inv h
  obtain ⟨messages, hmessages, h⟩ := bind_ok_inv h
  obtain ⟨contracts, -, h⟩ := bind_ok_inv h
  cases h
  obtain ⟨hobjects, rfl⟩ := diagnostics_ok_iff.mp hmessages
  exact ⟨entries, ⟨printed, listed, mapError_ok_iff.mp hprinted, hlisted, hentries⟩, hobjects, rfl⟩

theorem parse_object {stdout : String} {fields : Fields} {entries : List Json}
    (hparse : Json.parse stdout = .ok (.object fields)) (h : Lists stdout entries)
    (hobjects : ∀ entry ∈ entries, ∃ fields, entry = .object fields) :
    parse stdout = .ok {
      contracts := (Fields.get? fields "contracts").getD (.object [])
      errors := entries.filterMap errorMessage? } := by
  obtain ⟨printed, listed, hprinted, herrors, hitems⟩ := h
  rw [hparse, Except.ok.injEq] at hprinted
  subst hprinted
  rw [parse, hparse, mapError_ok, ok_bind, herrors, ok_bind, hitems, ok_bind,
    diagnostics_ok_iff.mpr ⟨hobjects, rfl⟩]
  rfl

theorem parse_of_lists {stdout : String} {entries : List Json} (h : Lists stdout entries)
    (hobjects : ∀ entry ∈ entries, ∃ fields, entry = .object fields) :
    ∃ output, parse stdout = .ok output ∧ output.errors = entries.filterMap errorMessage? := by
  obtain ⟨printed, listed, hparse, herrors, hitems⟩ := h
  cases printed with
  | object fields =>
    exact ⟨_, parse_object hparse ⟨_, listed, hparse, herrors, hitems⟩ hobjects, rfl⟩
  | _ => cases herrors

theorem parse_error {stdout : String} {cause : Json.ParseFault}
    (h : Json.parse stdout = .error cause) : parse stdout = .error (Fault.ofParse
      (fun fault => .process { cause := .compilerOutput fault, output := stdout }) cause) := by
  rw [parse, h, mapError_error, error_bind]

end StandardOutput

/-! ## Diagnostics of a run -/

inductive Backend.Rejects (backend : Backend) (e : Ended) : Prop
  | exited (code : e.code ≠ 0)
  | listed (standard : backend.isEof = false) {entries : List Json}
    (lists : StandardOutput.Lists e.output entries) {entry : Json} (mem : entry ∈ entries)
    (error : StandardOutput.IsErrorEntry entry)
  | complained (eof : backend.isEof = true) (stderr : "Error:".toList <:+: e.errors.toList)

/-- The error diagnostics of a run that a compiler ended as it should, in order: the exit code
counts before the error stream, and the error stream before the output. -/
inductive Backend.Reports (backend : Backend) (e : Ended) : List Json → Prop
  | crashed (standard : backend.isEof = false) (code : e.code ≠ 0) :
    Reports backend e [.text (if (Text.trimmed e.errors).isEmpty then
      s!"solc exited with code {e.code}" else Text.trimmed e.errors)]
  | listed (standard : backend.isEof = false) (code : e.code = 0) {entries : List Json}
    (lists : StandardOutput.Lists e.output entries)
    (objects : ∀ entry ∈ entries, ∃ fields, entry = .object fields) :
    Reports backend e (entries.filterMap StandardOutput.errorMessage?)
  | exited (eof : backend.isEof = true) (code : e.code ≠ 0) :
    Reports backend e [.text s!"Compiler exited with code {e.code}, stderr: {e.errors}"]
  | complained (eof : backend.isEof = true) (code : e.code = 0)
    (stderr : "Error:".toList <:+: e.errors.toList) :
    Reports backend e [.text s!"Compiler exited with non-empty stderr: {e.errors}"]
  | printed (eof : backend.isEof = true) (code : e.code = 0)
    (stderr : ¬ "Error:".toList <:+: e.errors.toList) {output : Json}
    (parses : Json.parse e.output = .ok output) : Reports backend e []

section
variable {backend : Backend} {e : Ended} {messages : List Json}

/-- A run is a rejection exactly if it has an error diagnostic. -/
theorem Backend.Reports.rejects_iff (h : backend.Reports e messages) :
    backend.Rejects e ↔ messages ≠ [] := by
  cases h with
  | crashed standard code => exact iff_of_true (.exited code) (List.cons_ne_nil _ _)
  | exited eof code => exact iff_of_true (.exited code) (List.cons_ne_nil _ _)
  | complained eof code stderr => exact iff_of_true (.complained eof stderr) (List.cons_ne_nil _ _)
  | printed eof code stderr =>
    refine iff_of_false ?_ (not_not.mpr rfl)
    rintro (hcode | ⟨standard, -, -, -⟩ | ⟨-, herror⟩)
    · exact hcode code
    · simp [eof] at standard
    · exact stderr herror
  | @listed standard code entries lists objects =>
    rw [ne_eq, List.filterMap_eq_nil_iff]
    constructor
    · rintro (hcode | ⟨-, lists', mem, error⟩ | ⟨eof, -⟩) hnone
      · exact hcode code
      · obtain rfl := lists.unique lists'
        have hsome := (StandardOutput.errorMessage?_isSome_iff _).mpr error
        rw [hnone _ mem] at hsome
        cases hsome
      · simp [eof] at standard
    · intro hsome
      obtain ⟨entry, mem, hentry⟩ := not_forall₂.mp hsome
      exact .listed standard lists mem ((StandardOutput.errorMessage?_isSome_iff entry).mp
        (Option.isSome_iff_ne_none.mpr hentry))

namespace StandardCompiler

theorem reports_of_outputOf (hb : backend.isEof = false) {output : StandardOutput}
    (h : outputOf e = .ok output) : backend.Reports e output.errors := by
  unfold outputOf at h
  split at h
  · rename_i code
    cases h
    exact .crashed hb code
  · rename_i code
    obtain ⟨entries, lists, objects, herrors⟩ := StandardOutput.parse_errors h
    rw [herrors]
    exact .listed hb (not_not.mp code) lists objects

theorem outputOf_of_reports (hb : backend.isEof = false) (h : backend.Reports e messages) :
    ∃ output, outputOf e = .ok output ∧ output.errors = messages := by
  unfold outputOf
  cases h with
  | crashed standard code => rw [if_pos code]; exact ⟨_, rfl, rfl⟩
  | listed standard code lists objects =>
    rw [if_neg (not_not.mpr code)]
    exact StandardOutput.parse_of_lists lists objects
  | _ => simp_all

end StandardCompiler

namespace EofCompiler

theorem reports_of_outputOf {command : List String} (hb : backend.isEof = true)
    {output : CombinedOutput}
    (h : outputOf command e = .ok output) : backend.Reports e output.errors := by
  unfold outputOf at h
  split at h
  · rename_i code
    cases h
    exact .exited hb code
  · rename_i code
    split at h
    · rename_i stderr
      cases h
      exact .complained hb (not_not.mp code) ((Json.occursIn_iff _ _).mp stderr)
    · rename_i stderr
      obtain ⟨printed, hprinted, h⟩ := bind_ok_inv h
      obtain ⟨contracts, -, h⟩ := bind_ok_inv h
      cases h
      exact .printed hb (not_not.mp code) (mt (Json.occursIn_iff _ _).mpr stderr)
        (mapError_ok_iff.mp hprinted)

/-- Only output without diagnostics may still have no contracts to look at. -/
theorem outputOf_of_reports (hb : backend.isEof = true) (h : backend.Reports e messages)
    (command : List String) :
    (∃ output, outputOf command e = .ok output ∧ output.errors = messages) ∨
      messages = [] ∧ ∃ cause, outputOf command e = .error (.misuse cause) := by
  unfold outputOf
  cases h with
  | exited eof code => rw [if_pos code]; exact Or.inl ⟨_, rfl, rfl⟩
  | complained eof code stderr =>
    rw [if_neg (not_not.mpr code), if_pos ((Json.occursIn_iff _ _).mpr stderr)]
    exact Or.inl ⟨_, rfl, rfl⟩
  | @printed eof code stderr output parses =>
    rw [if_neg (not_not.mpr code), if_neg (mt (Json.occursIn_iff _ _).mp stderr)]
    dsimp only
    rw [parses, mapError_ok, ok_bind]
    cases output.fieldOr "contracts" (.object []) with
    | ok contracts => exact Or.inl ⟨_, rfl, rfl⟩
    | error cause => exact Or.inr ⟨rfl, cause, rfl⟩
  | _ => simp_all

end EofCompiler

end

/-! ## Outcomes -/

/-- What diagnostics make of an outcome: without any it succeeded, if there is one at all, and with
some it failed and shows them. -/
structure Backend.Settles (backend : Backend) (messages : List Json)
    (settled : Except Misuse CompileOutcome) : Prop where
  accepted : messages = [] → ∀ outcome, settled = .ok outcome → outcome.success = true
  rejected : messages ≠ [] →
    settled = do return CompileOutcome.failed backend (← Json.joinLines messages)

namespace Dispatcher

theorem ofStandard_settles (backend : Backend) (output : StandardOutput) (name : Json) :
    backend.Settles output.errors (ofStandard backend output name) where
  accepted hnone outcome h := by
    rw [ofStandard, StandardOutput.success, List.isEmpty_iff.mpr hnone, if_pos rfl] at h
    obtain ⟨code, -, h⟩ := bind_ok_inv h
    obtain ⟨selectors, -, h⟩ := bind_ok_inv h
    cases h
    rfl
  rejected hsome := by
    rw [ofStandard, StandardOutput.success, List.isEmpty_eq_false_iff.mpr hsome]
    rfl

theorem ofCombined_settles (backend : Backend) (output : CombinedOutput) :
    backend.Settles output.errors (ofCombined backend output) where
  accepted hnone outcome h := by
    rw [ofCombined, CombinedOutput.success, List.isEmpty_iff.mpr hnone, if_pos rfl] at h
    obtain ⟨code, -, h⟩ := bind_ok_inv h
    obtain ⟨selectors, -, h⟩ := bind_ok_inv h
    cases h
    rfl
  rejected hsome := by
    rw [ofCombined, CombinedOutput.success, List.isEmpty_eq_false_iff.mpr hsome]
    rfl

section
variable (d : Dispatcher) {backend : Backend} (name : Json) {e : Ended} {messages : List Json}

theorem verdict_of_reports (h : backend.Reports e messages) : ∃ settled,
    backend.Settles messages settled ∧
      d.verdict backend name (.ended e) = settled.mapError .misuse := by
  cases hb : backend.isEof with
  | false =>
    obtain ⟨output, houtput, rfl⟩ := StandardCompiler.outputOf_of_reports hb h
    refine ⟨_, ofStandard_settles backend output name, ?_⟩
    rw [verdict, hb, StandardCompiler.verdict_ended, houtput]
    rfl
  | true =>
    rw [verdict, hb, if_pos rfl, EofCompiler.verdict_ended]
    rcases EofCompiler.outputOf_of_reports hb h (EofCompiler.command d.settings) with
      ⟨output, houtput, rfl⟩ | ⟨rfl, cause, houtput⟩
    · rw [houtput, ok_bind]
      exact ⟨_, ofCombined_settles backend output, rfl⟩
    · rw [houtput, error_bind]
      refine ⟨.error cause, ⟨?_, fun h => absurd rfl h⟩, rfl⟩
      rintro - outcome ⟨⟩

theorem reports_of_verdict {reply : ProgramReply} {outcome : CompileOutcome}
    (h : d.verdict backend name reply = .ok outcome) :
    ∃ e messages, reply = .ended e ∧ backend.Reports e messages := by
  cases hb : backend.isEof with
  | false =>
    rw [verdict, hb] at h
    obtain ⟨output, houtput, -⟩ := bind_ok_inv h
    obtain ⟨e, hended, houtput⟩ := bind_ok_inv houtput
    exact ⟨e, _, Session.ended_ok_iff.mp hended, StandardCompiler.reports_of_outputOf hb houtput⟩
  | true =>
    rw [verdict, hb, if_pos rfl] at h
    obtain ⟨output, houtput, -⟩ := bind_ok_inv h
    obtain ⟨e, hended, houtput⟩ := bind_ok_inv houtput
    exact ⟨e, _, Session.ended_ok_iff.mp hended, EofCompiler.reports_of_outputOf hb houtput⟩

/-- Diagnostics that are no errors make no difference: it is as if none had been listed. -/
theorem verdict_listed (hb : backend.isEof = false) (hcode : e.code = 0) {fields : Fields}
    {entries : List Json} (hparse : Json.parse e.output = .ok (.object fields))
    (hlists : StandardOutput.Lists e.output entries)
    (hobjects : ∀ entry ∈ entries, ∃ fields, entry = .object fields)
    (hnone : ∀ entry ∈ entries, ¬ StandardOutput.IsErrorEntry entry) :
    d.verdict backend name (.ended e) = (ofStandard backend
      { contracts := (Fields.get? fields "contracts").getD (.object []) } name).mapError
        .misuse := by
  have herrors : entries.filterMap StandardOutput.errorMessage? = [] := by
    rw [List.filterMap_eq_nil_iff]
    intro entry hentry
    rw [← Option.not_isSome_iff_eq_none, StandardOutput.errorMessage?_isSome_iff]
    exact hnone entry hentry
  rw [verdict, hb, StandardCompiler.verdict_ended, StandardCompiler.outputOf,
    if_neg (not_not.mpr hcode), StandardOutput.parse_object hparse hlists hobjects, herrors]
  rfl

theorem verdict_printed (hb : backend.isEof = true) (hcode : e.code = 0)
    (hstderr : ¬ "Error:".toList <:+: e.errors.toList) {fields : Fields}
    (hparse : Json.parse e.output = .ok (.object fields)) :
    d.verdict backend name (.ended e) = (ofCombined backend
      { contracts := (Fields.get? fields "contracts").getD (.object []) }).mapError .misuse := by
  rw [verdict, hb, if_pos rfl, EofCompiler.verdict_ended, EofCompiler.outputOf,
    if_neg (not_not.mpr hcode), if_neg (mt (Json.occursIn_iff _ _).mp hstderr)]
  dsimp only
  rw [hparse]
  rfl

theorem verdict_timedOut : ∃ p, d.verdict backend name .timedOut = .error (.process p) := by
  cases hb : backend.isEof with
  | false => exact ⟨_, by rw [verdict, hb]; rfl⟩
  | true => exact ⟨_, by rw [verdict, hb]; rfl⟩

/-- What cannot be read is told as the reader refused it. -/
theorem verdict_unparsed {cause : Json.ParseFault} (hcode : e.code = 0)
    (hstderr : backend.isEof = true → ¬ "Error:".toList <:+: e.errors.toList)
    (h : Json.parse e.output = .error cause) : ∃ onSyntax : Json.SyntaxFault → ProcessFault,
      (∀ fault, (onSyntax fault).output = e.output) ∧
      d.verdict backend name (.ended e) =
        .error (Fault.ofParse (fun fault => .process (onSyntax fault)) cause) := by
  cases hb : backend.isEof with
  | false =>
    refine ⟨fun fault => { cause := .compilerOutput fault, output := e.output }, fun _ => rfl, ?_⟩
    rw [verdict, hb, StandardCompiler.verdict_ended, StandardCompiler.outputOf,
      if_neg (not_not.mpr hcode), StandardOutput.parse_error h]
    rfl
  | true =>
    refine ⟨fun fault => {
      cause := .eofOutput fault
      command := (EofCompiler.command d.settings).map .text
      code := some e.code
      output := e.output
      errors := e.errors }, fun _ => rfl, ?_⟩
    rw [verdict, hb, if_pos rfl, EofCompiler.verdict_ended, EofCompiler.outputOf,
      if_neg (not_not.mpr hcode), if_neg (mt (Json.occursIn_iff _ _).mp (hstderr hb))]
    dsimp only
    rw [h, mapError_error, error_bind, error_bind]

end

end Dispatcher

/-! ## Absorbed rejections -/

/-- What a compile makes of the reply of the compiler. An outcome that failed is a rejection, and a
rejection is an outcome that failed, with the diagnostics on its lines. Without a rejection the
contract is looked for, whatever other diagnostics there are. A compiler that times out or prints no
JSON gives no outcome, and output that the reader gives up on is another fault than output that
breaks the grammar. -/
structure Backend.Answers (backend : Backend) (name : Json) (reply : ProgramReply)
    (result : Except Fault CompileOutcome) : Prop where
  failed_iff : ∀ outcome, result = .ok outcome →
    ∃ e, reply = .ended e ∧ (outcome.success = false ↔ backend.Rejects e)
  failed : ∀ outcome, result = .ok outcome → outcome.success = false →
    ∃ e texts, reply = .ended e ∧ backend.Reports e (texts.map .text) ∧
      outcome.bytecode = .null ∧ outcome.selectors = {} ∧ outcome.error = "\n".intercalate texts
  absorbed : ∀ e texts, reply = .ended e → backend.Rejects e →
    backend.Reports e (texts.map .text) →
      result = .ok (.failed backend ("\n".intercalate texts))
  listed : ∀ e fields entries, reply = .ended e → backend.isEof = false → e.code = 0 →
    Json.parse e.output = .ok (.object fields) → StandardOutput.Lists e.output entries →
    (∀ entry ∈ entries, (∃ fields, entry = .object fields) ∧
      ¬ StandardOutput.IsErrorEntry entry) →
    result = (Dispatcher.ofStandard backend
      { contracts := (Fields.get? fields "contracts").getD (.object []) } name).mapError .misuse
  printed : ∀ e fields, reply = .ended e → backend.isEof = true → e.code = 0 →
    ¬ "Error:".toList <:+: e.errors.toList → Json.parse e.output = .ok (.object fields) →
    result = (Dispatcher.ofCombined backend
      { contracts := (Fields.get? fields "contracts").getD (.object []) }).mapError .misuse
  timedOut : reply = .timedOut → ∃ p, result = .error (.process p)
  unparsed : ∀ e cause, reply = .ended e → e.code = 0 →
    (backend.isEof = true → ¬ "Error:".toList <:+: e.errors.toList) →
    Json.parse e.output = .error cause →
      match cause with
      | .malformed _ => ∃ p : ProcessFault, result = .error (.process p) ∧ p.output = e.output
      | .tooLong count => result = .error (.misuse (.digits count))
      | .tooDeep nest => result = .error (.tooDeep nest)

namespace Dispatcher

theorem answers_verdict (d : Dispatcher) (backend : Backend) (name : Json) (reply : ProgramReply) :
    backend.Answers name reply (d.verdict backend name reply) where
  failed_iff outcome h := by
    obtain ⟨e, messages, rfl, hreports⟩ := reports_of_verdict d name h
    obtain ⟨settled, hsettles, hverdict⟩ := verdict_of_reports d name hreports
    rw [hverdict, mapError_ok_iff] at h
    refine ⟨e, rfl, ?_⟩
    rw [hreports.rejects_iff]
    by_cases hnone : messages = []
    · simp [hsettles.accepted hnone outcome h, hnone]
    · rw [hsettles.rejected hnone] at h
      obtain ⟨shown, -, h⟩ := bind_ok_inv h
      cases h
      exact iff_of_true rfl hnone
  failed outcome h hfailed := by
    obtain ⟨e, messages, rfl, hreports⟩ := reports_of_verdict d name h
    obtain ⟨settled, hsettles, hverdict⟩ := verdict_of_reports d name hreports
    rw [hverdict, mapError_ok_iff] at h
    have hsome : messages ≠ [] := fun hnone => by
      simp [hsettles.accepted hnone outcome h] at hfailed
    rw [hsettles.rejected hsome] at h
    obtain ⟨shown, hshown, h⟩ := bind_ok_inv h
    obtain ⟨texts, rfl, rfl⟩ := Json.joinLines_ok_iff.mp hshown
    cases h
    exact ⟨e, texts, rfl, hreports, rfl, rfl, rfl⟩
  absorbed e texts hreply hrejects hreports := by
    obtain ⟨settled, hsettles, hverdict⟩ := verdict_of_reports d name hreports
    rw [hreply, hverdict, hsettles.rejected (hreports.rejects_iff.mp hrejects),
      Json.joinLines_ok_iff.mpr ⟨texts, rfl, rfl⟩]
    rfl
  listed e fields entries hreply hb hcode hparse hlists hentries := by
    rw [hreply]
    exact verdict_listed d name hb hcode hparse hlists (fun entry h => (hentries entry h).1)
      fun entry h => (hentries entry h).2
  printed e fields hreply hb hcode hstderr hparse := by
    rw [hreply]
    exact verdict_printed d name hb hcode hstderr hparse
  timedOut hreply := by
    rw [hreply]
    exact verdict_timedOut d name
  unparsed e cause hreply hcode hstderr hparse := by
    obtain ⟨onSyntax, houtput, hverdict⟩ := verdict_unparsed d name hcode hstderr hparse
    rw [hreply, hverdict]
    cases cause with
    | malformed fault => exact ⟨onSyntax fault, rfl, houtput fault⟩
    | tooLong count => rfl
    | tooDeep nest => rfl

/-- A compile faults for what keeps it from asking for the compiler, or its one request for the
compiler is the last one, and the reply decides. -/
theorem compile_absorbs_rejections (d : Dispatcher) (variant : Variant) (backend : Backend)
    (o : Outside) (b : Bench) :
    let ended := (d.compile variant backend).run o b
    ∃ preparing, (∀ r ∈ preparing, r.role = .other) ∧
      ((∃ fault, d.Unprepared o b variant backend fault ∧ ended.1 = .error fault ∧
        ended.2.asked = b.asked ++ preparing) ∨
      ∃ source name rendered request,
        (d.render variant.tree backend).run o b = (.ok source, rendered) ∧
        targetName variant = .ok name ∧ backend.Compiles d.settings source request ∧
        ended.2.asked = b.asked ++ preparing ++ [request] ∧
        backend.Answers name (backend.reply o (b.asked ++ preparing)) ended.1) := by
  intro ended
  rcases hrun : (d.compile variant backend).run o b with ⟨result, b'⟩
  have hended : ended = (result, b') := hrun
  rw [hended]
  cases ends_run hrun with
  | unasked unprepared asked roles =>
    exact ⟨_, roles, Or.inl ⟨_, unprepared, rfl, asked⟩⟩
  | replied render target roles compiles asked =>
    exact ⟨_, roles, Or.inr ⟨_, _, _, _, render, target, compiles, asked,
      d.answers_verdict backend _ _⟩⟩

end Dispatcher

namespace Sample

def brokenOff : Ended where
  output := String.ofList ('[' :: (Json.int Json.overlong).printed)

def breakingOff : Outside := { outside with compiler := fun _ _ => .ended brokenOff }

end Sample

/-- Output that is no JSON is not always told as such: a reader that has given up on a number of 4301
digits does not come to the missing bracket. -/
theorem Dispatcher.broken_off_output_not_reported :
    ((Dispatcher.compile { settings := {} } Sample.variant ⟨"0.8.21"⟩).run Sample.breakingOff
      Sample.bench).1 = .error (.misuse (.digits 4301)) := by
  obtain ⟨r, hrender⟩ := @run_render Sample.breakingOff Sample.bench Sample.bench _ { settings := {} }
    ⟨"0.8.21"⟩ _ "0.8.21" Sample.variant.tree _ rfl rfl (Sample.checkReply_rendered _) rfl
  have hname : targetName Sample.variant = .ok (.text "C") := rfl
  obtain ⟨events, hcompiled⟩ := StandardCompiler.run_compile
    (@StandardCompiler.run_ensureInstalled Sample.breakingOff { Sample.bench with asked := [r] } {}
      "0.8.21" rfl) (.text "x") none
  obtain ⟨events', hrun⟩ := run_compile_standard rfl hrender hname hcompiled
  have hasked : ((Dispatcher.compile { settings := {} } Sample.variant ⟨"0.8.21"⟩).run
      Sample.breakingOff Sample.bench).2.asked =
      [r, StandardCompiler.request {} (.text "x") "0.8.21" none] := by rw [hrun]; rfl
  obtain ⟨preparing, hroles, ⟨fault, -, -, hother⟩ |
      ⟨source, name, rendered, request, -, -, -, -, hanswers⟩⟩ :=
    compile_absorbs_rejections { settings := {} } Sample.variant ⟨"0.8.21"⟩ Sample.breakingOff
      Sample.bench
  · have hmem : StandardCompiler.request {} (.text "x") "0.8.21" none ∈ preparing := by
      rw [show preparing = _ from hother.symm.trans hasked]
      simp
    cases hroles _ hmem
  · have hparse : Json.parse Sample.brokenOff.output = .error (.tooLong 4301) := by
      rw [Sample.brokenOff, Json.parse_overlong_item Json.maxDigits_lt_overlong,
        Json.digitCount_overlong, maxDigits]
    exact hanswers.unparsed Sample.brokenOff _ rfl rfl nofun hparse

end BackendFuzz
