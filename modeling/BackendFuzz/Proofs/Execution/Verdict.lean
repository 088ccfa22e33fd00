import BackendFuzz.Execution.Machine
import BackendFuzz.Proofs.Session.Run

/-!
# What a reply of the machine comes to

A reply gives an outcome, or the failure of a program, or it is one of the
replies listed here, which fail otherwise: the driver was not started, a dump is
no text or cannot be read in full, or an entry of the log dump has the wrong
shape.
-/

namespace BackendFuzz

namespace LogEntry

/-- An object whose topics, if it has any, are of a shape with items. -/
def Readable : Json → Prop
  | .object fields => ∀ v, Fields.get? fields "topics" = some v → ∃ items, v.items = .ok items
  | _ => False

theorem ofJson_isOk_iff (raw : Json) : (∃ e, ofJson raw = .ok e) ↔ Readable raw := by
  cases raw with
  | object fields =>
    simp only [ofJson, Json.fieldOr, Json.field?, Json.fieldsFor, ok_bind, pure, Except.pure,
      Readable]
    cases h : Fields.get? fields "topics" with
    | none => simp [Json.items, ok_bind]
    | some v => cases hv : v.items <;> simp [hv, ok_bind, error_bind]
  | _ => simp [ofJson, Json.fieldOr, Json.field?, Json.fieldsFor, error_bind, Readable]

theorem mapM_ofJson_isOk_iff (entries : List Json) :
    (∃ logs, entries.mapM ofJson = .ok logs) ↔ ∀ raw ∈ entries, Readable raw := by
  induction entries with
  | nil => simp [pure, Except.pure]
  | cons raw entries ih =>
    rw [List.forall_mem_cons, ← ih, ← ofJson_isOk_iff, List.mapM_cons]
    cases ofJson raw with
    | error e => simp [error_bind]
    | ok e => cases entries.mapM ofJson <;> simp [ok_bind, error_bind, pure, Except.pure]

end LogEntry

namespace Machine

/-! ## The verdict on a reply -/

def endedOf (settings : Settings) (command : List Json) : ProgramReply → Except Fault Ended
  | .ended e =>
    if e.code ≠ 0 then
      .error (.process { cause := .machineExit e.code e.errors, command, code := some e.code,
                         output := e.output, errors := e.errors })
    else .ok e
  | .timedOut => .error (.process { cause := .machineTimeout settings.vmTimeout, command })
  | .missing => .error (.file ⟨.absent, settings.evmcPath⟩)
  | .denied => .error (.file ⟨.denied, settings.evmcPath⟩)
  | .interrupted => .error .interrupted

def dumpOf (path : Path) (what : String) : Option ByteArray → Except Fault Json
  | none => .error (.process { cause := .machineDump what (.unreadable ⟨.absent, path.text⟩) })
  | some content =>
    match Text.decode content with
    | .error fault => .error (.encoding fault)
    | .ok text =>
      (Json.parse (String.ofList (Text.unifyLines text.toList))).mapError
        (Fault.ofParse fun fault => .process { cause := .machineDump what (.malformed fault) })

def observed (settings : Settings) (command : List Json) (reply : MachineReply) :
    Except Fault (Ended × String × String × Json × Json) := do
  let ended ← endedOf settings command reply.reply
  match readReport ended.output with
  | none => .error (.process { cause := .machineStatus, output := ended.output })
  | some (status, shown) =>
    let storage ← dumpOf storageFile "storage" reply.storage
    let logs ← dumpOf logsFile "logs" reply.logs
    return (ended, status, shown, storage, logs)

def verdict (settings : Settings) (command : List Json) (reply : MachineReply) :
    Except Fault RunOutcome := do
  let (ended, status, shown, storage, logs) ← observed settings command reply
  outcomeOf ended.output status shown storage logs

/-! ## Replies that fail otherwise than a program -/

def IsProcess (fault : Fault) : Prop := ∃ p, fault = .process p

def DumpHolds (content : ByteArray) (v : Json) : Prop :=
  ∃ text, Text.decode content = .ok text ∧
    Json.parse (String.ofList (Text.unifyLines text.toList)) = .ok v

/-- A dump that is no text, or whose text has too long a number or lies too deep. -/
inductive DumpEscapes (content : ByteArray) : Prop
  | bytes (fault : Text.Utf8Fault) (h : Text.decode content = .error fault)
  | digits (text : String) (count : Nat) (h : Text.decode content = .ok text)
    (hp : Json.parse (String.ofList (Text.unifyLines text.toList)) = .error (.tooLong count))
  | nest (text : String) (nest : Json.Nest) (h : Text.decode content = .ok text)
    (hp : Json.parse (String.ofList (Text.unifyLines text.toList)) = .error (.tooDeep nest))

/-- The replies whose failure is not taken as one of a program. -/
inductive Escapes : MachineReply → Prop
  | missing (storage logs : Option ByteArray) : Escapes ⟨.missing, storage, logs⟩
  | denied (storage logs : Option ByteArray) : Escapes ⟨.denied, storage, logs⟩
  | interrupted (storage logs : Option ByteArray) : Escapes ⟨.interrupted, storage, logs⟩
  | storage {e : Ended} {content : ByteArray} (logs : Option ByteArray) (hc : e.code = 0)
    (hr : (readReport e.output).isSome) (h : DumpEscapes content) :
    Escapes ⟨.ended e, some content, logs⟩
  | logs {e : Ended} {storage content : ByteArray} {v : Json} (hc : e.code = 0)
    (hr : (readReport e.output).isSome) (hs : DumpHolds storage v) (h : DumpEscapes content) :
    Escapes ⟨.ended e, some storage, some content⟩
  | entry {e : Ended} {storage logs : ByteArray} {fields : Fields} {entries : List Json}
    {raw : Json} (hc : e.code = 0) (hr : (readReport e.output).isSome)
    (hs : DumpHolds storage (.object fields)) (hl : DumpHolds logs (.array entries))
    (hraw : raw ∈ entries) (h : ¬ LogEntry.Readable raw) :
    Escapes ⟨.ended e, some storage, some logs⟩

theorem dumpOf_some_ok {path : Path} {what : String} {content : ByteArray} {v : Json} :
    dumpOf path what (some content) = .ok v ↔ DumpHolds content v := by
  unfold DumpHolds
  cases hd : Text.decode content with
  | error fault => simp [dumpOf, hd]
  | ok text =>
    cases hp : Json.parse (String.ofList (Text.unifyLines text.toList)) <;>
      simp [dumpOf, hd, hp, mapError_ok, mapError_error]

theorem dumpOf_some_error {path : Path} {what : String} {content : ByteArray} {fault : Fault}
    (h : dumpOf path what (some content) = .error fault) :
    IsProcess fault ↔ ¬ DumpEscapes content := by
  cases hd : Text.decode content with
  | error bad =>
    have hesc : DumpEscapes content := .bytes bad hd
    simp only [dumpOf, hd] at h
    cases h
    simp [IsProcess, hesc]
  | ok text =>
    cases hp : Json.parse (String.ofList (Text.unifyLines text.toList)) with
    | ok v => simp [dumpOf, hd, hp, mapError_ok] at h
    | error bad =>
      simp only [dumpOf, hd, hp, mapError_error, Except.error.injEq] at h
      subst h
      cases bad with
      | malformed bad =>
        refine ⟨fun _ hesc => ?_, fun _ => ⟨_, rfl⟩⟩
        cases hesc <;> simp_all
      | tooLong count =>
        have hesc : DumpEscapes content := .digits text count hd hp
        simp [IsProcess, Fault.ofParse, hesc]
      | tooDeep nest =>
        have hesc : DumpEscapes content := .nest text nest hd hp
        simp [IsProcess, Fault.ofParse, hesc]

theorem dumpHolds_unique {content : ByteArray} {v w : Json} (hv : DumpHolds content v)
    (hw : DumpHolds content w) : v = w := by
  have hv' : dumpOf storageFile "storage" (some content) = .ok v := dumpOf_some_ok.mpr hv
  rw [dumpOf_some_ok.mpr hw] at hv'
  exact (Except.ok.inj hv').symm

theorem not_escapes_of_holds {content : ByteArray} {v : Json} (hv : DumpHolds content v) :
    ¬ DumpEscapes content := by
  obtain ⟨text, hd, hp⟩ := hv
  intro h
  cases h <;> simp_all

theorem error_and_not_process {α : Type} {fault : Fault} :
    (∃ f, (.error fault : Except Fault α) = .error f ∧ ¬ IsProcess f) ↔ ¬ IsProcess fault := by
  simp

theorem outcomeOf_escapes_iff (output status shown : String) (storage logs : Json) :
    (∃ fault, outcomeOf output status shown storage logs = .error fault ∧ ¬ IsProcess fault) ↔
      ∃ fields entries raw, storage = .object fields ∧ logs = .array entries ∧ raw ∈ entries ∧
        ¬ LogEntry.Readable raw := by
  unfold outcomeOf
  split
  · rename_i fields entries
    have hread := LogEntry.mapM_ofJson_isOk_iff entries
    cases hm : entries.mapM LogEntry.ofJson with
    | ok logs =>
      have hall := hread.mp ⟨logs, hm⟩
      constructor
      · rintro ⟨_, h, _⟩
        cases h
      · rintro ⟨_, _, raw, -, ⟨⟩, hraw, hbad⟩
        exact absurd (hall raw hraw) hbad
    | error cause =>
      have hbad : ¬ ∀ raw ∈ entries, LogEntry.Readable raw := by
        rw [← hread, hm]
        rintro ⟨_, hok⟩
        cases hok
      simp only [Classical.not_forall] at hbad
      obtain ⟨raw, hraw, hbad⟩ := hbad
      refine error_and_not_process.trans ⟨fun _ => ⟨_, _, raw, rfl, rfl, hraw, hbad⟩, fun _ => ?_⟩
      simp [IsProcess]
  · rename_i hne
    refine error_and_not_process.trans ⟨fun h => absurd ⟨_, rfl⟩ h, ?_⟩
    rintro ⟨fields, entries, raw, rfl, rfl, -⟩
    exact absurd rfl (hne fields entries rfl)

variable (settings : Settings) (command : List Json)

theorem verdict_ended_zero {e : Ended} (hc : e.code = 0) {status shown : String}
    (hr : readReport e.output = some (status, shown)) (storage logs : Option ByteArray) :
    verdict settings command ⟨.ended e, storage, logs⟩ = (do
      let storage ← dumpOf storageFile "storage" storage
      let logs ← dumpOf logsFile "logs" logs
      outcomeOf e.output status shown storage logs) := by
  simp only [verdict, observed, endedOf, hc, ne_eq, not_true_eq_false, ite_false, ok_bind, hr]
  cases dumpOf storageFile "storage" storage with
  | error fault => rfl
  | ok v => cases dumpOf logsFile "logs" logs <;> rfl

theorem escapes_ended_zero {e : Ended} (hc : e.code = 0) (hr : (readReport e.output).isSome)
    (storage logs : Option ByteArray) : Escapes ⟨.ended e, storage, logs⟩ ↔
      ∃ s, storage = some s ∧ (DumpEscapes s ∨ ∃ v l, DumpHolds s v ∧ logs = some l ∧
        (DumpEscapes l ∨ ∃ fields entries raw, v = .object fields ∧
          DumpHolds l (.array entries) ∧ raw ∈ entries ∧ ¬ LogEntry.Readable raw)) := by
  constructor
  · intro h
    cases h with
    | storage _ _ _ h => exact ⟨_, rfl, Or.inl h⟩
    | logs _ _ hs h => exact ⟨_, rfl, Or.inr ⟨_, _, hs, rfl, Or.inl h⟩⟩
    | entry _ _ hs hl hraw h =>
      exact ⟨_, rfl, Or.inr ⟨_, _, hs, rfl, Or.inr ⟨_, _, _, rfl, hl, hraw, h⟩⟩⟩
  · rintro ⟨s, rfl, h | ⟨v, l, hs, rfl, h | ⟨fields, entries, raw, rfl, hl, hraw, h⟩⟩⟩
    · exact .storage logs hc hr h
    · exact .logs hc hr hs h
    · exact .entry hc hr hs hl hraw h

theorem dumps_escape_iff (output status shown : String) (storage logs : Option ByteArray) :
    (∃ fault, (do
      let storage ← dumpOf storageFile "storage" storage
      let logs ← dumpOf logsFile "logs" logs
      outcomeOf output status shown storage logs) = .error fault ∧ ¬ IsProcess fault) ↔
    ∃ s, storage = some s ∧ (DumpEscapes s ∨ ∃ v l, DumpHolds s v ∧ logs = some l ∧
      (DumpEscapes l ∨ ∃ fields entries raw, v = .object fields ∧
        DumpHolds l (.array entries) ∧ raw ∈ entries ∧ ¬ LogEntry.Readable raw)) := by
  cases storage with
  | none =>
    refine error_and_not_process.trans ⟨fun h => absurd ⟨_, rfl⟩ h, ?_⟩
    rintro ⟨_, h, _⟩
    cases h
  | some s =>
    cases hs : dumpOf storageFile "storage" (some s) with
    | error fault =>
      rw [error_bind, error_and_not_process, dumpOf_some_error hs, Classical.not_not]
      refine ⟨fun h => ⟨s, rfl, Or.inl h⟩, ?_⟩
      rintro ⟨_, ⟨⟩, h | ⟨v, l, hv, -⟩⟩
      · exact h
      · rw [dumpOf_some_ok.mpr hv] at hs
        cases hs
    | ok v =>
      have hv := dumpOf_some_ok.mp hs
      rw [ok_bind]
      cases logs with
      | none =>
        refine error_and_not_process.trans ⟨fun h => absurd ⟨_, rfl⟩ h, ?_⟩
        rintro ⟨_, ⟨⟩, h | ⟨_, _, _, h, _⟩⟩
        · exact absurd h (not_escapes_of_holds hv)
        · cases h
      | some l =>
        cases hl : dumpOf logsFile "logs" (some l) with
        | error fault =>
          rw [error_bind, error_and_not_process, dumpOf_some_error hl, Classical.not_not]
          refine ⟨fun h => ⟨s, rfl, Or.inr ⟨v, l, hv, rfl, Or.inl h⟩⟩, ?_⟩
          rintro ⟨_, ⟨⟩, h | ⟨_, _, _, ⟨⟩, h | ⟨_, _, _, _, hw, _⟩⟩⟩
          · exact absurd h (not_escapes_of_holds hv)
          · exact h
          · rw [dumpOf_some_ok.mpr hw] at hl
            cases hl
        | ok w =>
          have hw := dumpOf_some_ok.mp hl
          rw [ok_bind, outcomeOf_escapes_iff]
          constructor
          · rintro ⟨fields, entries, raw, rfl, rfl, hraw, hbad⟩
            exact ⟨s, rfl, Or.inr ⟨_, l, hv, rfl, Or.inr ⟨_, _, _, rfl, hw, hraw, hbad⟩⟩⟩
          · rintro ⟨_, ⟨⟩, h | ⟨v', _, hv', ⟨⟩, h | ⟨fields, entries, raw, rfl, hw', hraw, hbad⟩⟩⟩
            · exact absurd h (not_escapes_of_holds hv)
            · exact absurd h (not_escapes_of_holds hw)
            · exact ⟨fields, entries, raw, dumpHolds_unique hv hv', dumpHolds_unique hw hw', hraw,
                hbad⟩

/-- The verdict is a fault that is not taken as the failure of a program exactly if the reply is
one of those listed. -/
theorem verdict_escapes_iff (reply : MachineReply) :
    (∃ fault, verdict settings command reply = .error fault ∧ ¬ IsProcess fault) ↔
      Escapes reply := by
  obtain ⟨reply, storage, logs⟩ := reply
  cases reply with
  | missing => exact ⟨fun _ => .missing _ _, fun _ => ⟨_, rfl, by simp [IsProcess]⟩⟩
  | denied => exact ⟨fun _ => .denied _ _, fun _ => ⟨_, rfl, by simp [IsProcess]⟩⟩
  | interrupted => exact ⟨fun _ => .interrupted _ _, fun _ => ⟨_, rfl, by simp [IsProcess]⟩⟩
  | timedOut =>
    refine error_and_not_process.trans ⟨fun h => absurd ⟨_, rfl⟩ h, ?_⟩
    intro h
    cases h
  | ended e =>
    by_cases hc : e.code = 0
    · cases hr : readReport e.output with
      | none =>
        simp only [verdict, observed, endedOf, hc, ne_eq, not_true_eq_false, ite_false, ok_bind, hr,
          error_bind]
        refine error_and_not_process.trans ⟨fun h => absurd ⟨_, rfl⟩ h, ?_⟩
        intro h
        cases h <;> simp_all
      | some report =>
        obtain ⟨status, shown⟩ := report
        rw [verdict_ended_zero settings command hc hr, escapes_ended_zero hc (by simp [hr])]
        exact dumps_escape_iff e.output status shown storage logs
    · simp only [verdict, observed, endedOf, hc, ne_eq, not_false_eq_true, ite_true, error_bind]
      refine error_and_not_process.trans ⟨fun h => absurd ⟨_, rfl⟩ h, ?_⟩
      intro h
      cases h <;> contradiction

end Machine

end BackendFuzz
