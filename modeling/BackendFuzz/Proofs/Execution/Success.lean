import BackendFuzz.Proofs.Execution.Execute
import BackendFuzz.Proofs.Json.Overlong

/-!
# Runs that have an outcome

A run has an outcome exactly if the driver ended with exit code 0, its report
has a status, and its dumps hold an object and the entries of a log. A dump that
is JSON but has a number that is too long holds nothing.
-/

namespace BackendFuzz

open Text

/-! ## Markers of a report -/

namespace Report

theorem after?_eq_some {label cs rest : List Char} :
    after? label cs = some rest ↔ cs = label ++ rest := by
  induction label generalizing cs with
  | nil => simp [after?]
  | cons l label ih =>
    cases cs with
    | nil => simp [after?]
    | cons c cs =>
      rw [after?, List.cons_append, List.cons.injEq]
      by_cases h : l = c
      · rw [if_pos h, ih, and_iff_right h.symm]
      · rw [if_neg h]
        exact ⟨nofun, fun hcons => absurd hcons.1.symm h⟩

/-- Somewhere in a text the label stands right before a character of a marker. -/
def HasMarker (label cs : List Char) : Prop :=
  ∃ before c after, cs = before ++ label ++ c :: after ∧ isMarkerChar c = true

theorem markerHere_isSome_iff {label cs : List Char} : (markerHere label cs).isSome ↔
    ∃ c after, cs = label ++ c :: after ∧ isMarkerChar c = true := by
  unfold markerHere
  cases ha : after? label cs with
  | none =>
    refine ⟨nofun, ?_⟩
    rintro ⟨c, after, hcs, -⟩
    rw [after?_eq_some.mpr hcs] at ha
    cases ha
  | some rest =>
    obtain rfl := after?_eq_some.mp ha
    cases rest with
    | nil => simp
    | cons c after => cases hc : isMarkerChar c <;> simp [hc]

theorem marker?_isSome_iff (label cs : List Char) :
    (marker? label cs).isSome ↔ HasMarker label cs := by
  induction cs with
  | nil =>
    rw [marker?, markerHere_isSome_iff]
    constructor
    · rintro ⟨c, after, h, -⟩
      simp at h
    · rintro ⟨before, c, after, h, -⟩
      simp at h
  | cons d cs ih =>
    rw [marker?]
    cases hm : markerHere label (d :: cs) with
    | some marker =>
      obtain ⟨c, after, hcs, hc⟩ := markerHere_isSome_iff.mp (by rw [hm]; rfl)
      exact ⟨fun _ => ⟨[], c, after, hcs, hc⟩, fun _ => rfl⟩
    | none =>
      refine ih.trans ⟨?_, ?_⟩
      · rintro ⟨before, c, after, rfl, hc⟩
        exact ⟨d :: before, c, after, rfl, hc⟩
      · rintro ⟨before, c, after, hcs, hc⟩
        cases before with
        | nil =>
          have hsome := markerHere_isSome_iff.mpr ⟨c, after, List.nil_append label ▸ hcs, hc⟩
          rw [hm] at hsome
          cases hsome
        | cons b before => exact ⟨before, c, after, (List.cons.inj hcs).2, hc⟩

end Report

theorem readReport_isSome_iff (text : String) :
    (readReport text).isSome ↔ Report.HasMarker "Result:".toList text.toList := by
  rw [← Report.marker?_isSome_iff, readReport]
  cases Report.marker? "Result:".toList text.toList <;> simp

namespace Machine

/-! ## Replies that tell an outcome -/

/-- The driver ended well, its report has a status, and the dumps are text and hold an object and
an array of entries that can be read. -/
structure Tells (reply : MachineReply) (e : Ended) (fields : Fields) (entries : List Json) :
    Prop where
  ended : reply.reply = .ended e
  code : e.code = 0
  status : Report.HasMarker "Result:".toList e.output.toList
  storage : ∃ content, reply.storage = some content ∧ DumpHolds content (.object fields)
  logs : ∃ content, reply.logs = some content ∧ DumpHolds content (.array entries)
  readable : ∀ raw ∈ entries, LogEntry.Readable raw

structure Told (e : Ended) (fields : Fields) (entries : List Json) (outcome : RunOutcome) :
    Prop where
  report : readReport e.output = some (outcome.status, outcome.output)
  storage : outcome.storage = .object fields
  logs : List.Forall₂ (fun raw entry => LogEntry.ofJson raw = .ok entry) entries outcome.logs

section
variable {settings : Settings} {cmd : List Json} {reply : MachineReply} {e : Ended}
  {fields : Fields} {entries : List Json} {outcome : RunOutcome}

theorem endedOf_ok_iff {r : ProgramReply} :
    endedOf settings cmd r = .ok e ↔ r = .ended e ∧ e.code = 0 := by
  cases r with
  | ended e' =>
    by_cases hc : e'.code = 0
    · simp only [endedOf, hc, ne_eq, not_true_eq_false, ite_false, Except.ok.injEq,
        ProgramReply.ended.injEq]
      exact ⟨fun h => ⟨h, h ▸ hc⟩, And.left⟩
    · simp only [endedOf, hc, ne_eq, not_false_eq_true, ite_true, ProgramReply.ended.injEq]
      refine ⟨?_, fun h => absurd (h.1 ▸ h.2) hc⟩
      rintro ⟨⟩
  | _ => simp [endedOf]

theorem dumpOf_ok_iff {path : Path} {what : String} {dump : Option ByteArray} {v : Json} :
    dumpOf path what dump = .ok v ↔ ∃ content, dump = some content ∧ DumpHolds content v := by
  cases dump with
  | none => simp [dumpOf]
  | some content => simp [dumpOf_some_ok]

theorem outcomeOf_ok {output status shown : String} {storage logs : Json}
    (h : outcomeOf output status shown storage logs = .ok outcome) : ∃ fields entries,
    storage = .object fields ∧ logs = .array entries ∧ (∀ raw ∈ entries, LogEntry.Readable raw) := by
  unfold outcomeOf at h
  split at h
  · rename_i fields entries
    refine ⟨fields, entries, rfl, rfl, ?_⟩
    rw [← LogEntry.mapM_ofJson_isOk_iff]
    cases hm : entries.mapM LogEntry.ofJson with
    | ok logs => exact ⟨logs, rfl⟩
    | error cause => rw [hm, mapError_error, error_bind] at h; cases h
  · cases h

theorem tells_of_verdict (h : verdict settings cmd reply = .ok outcome) :
    ∃ e fields entries, Tells reply e fields entries := by
  obtain ⟨⟨e, status, shown, storage, logs⟩, hobserved, houtcome⟩ := bind_ok_inv h
  obtain ⟨e', hended, hobserved⟩ := bind_ok_inv hobserved
  obtain ⟨hreply, hcode⟩ := endedOf_ok_iff.mp hended
  split at hobserved
  · cases hobserved
  · rename_i hreport
    obtain ⟨storage', hstorage, hobserved⟩ := bind_ok_inv hobserved
    obtain ⟨logs', hlogs, hobserved⟩ := bind_ok_inv hobserved
    cases hobserved
    obtain ⟨fields, entries, rfl, rfl, hreadable⟩ := outcomeOf_ok houtcome
    exact ⟨e, fields, entries, hreply, hcode,
      (readReport_isSome_iff _).mp (by rw [hreport]; rfl), dumpOf_ok_iff.mp hstorage,
      dumpOf_ok_iff.mp hlogs, hreadable⟩

theorem Tells.verdict (h : Tells reply e fields entries) :
    ∃ outcome, verdict settings cmd reply = .ok outcome ∧ Told e fields entries outcome := by
  obtain ⟨⟨status, shown⟩, hreport⟩ := Option.isSome_iff_exists.mp
    ((readReport_isSome_iff e.output).mpr h.status)
  obtain ⟨logs, hlogs⟩ := (LogEntry.mapM_ofJson_isOk_iff entries).mpr h.readable
  have hreply : reply = ⟨.ended e, reply.storage, reply.logs⟩ := by rw [← h.ended]
  rw [hreply, verdict_ended_zero settings cmd h.code hreport, dumpOf_ok_iff.mpr h.storage,
    ok_bind, dumpOf_ok_iff.mpr h.logs, ok_bind]
  refine ⟨⟨status, shown, .object fields, logs⟩, ?_, hreport, rfl, mapM_ok_iff.mp hlogs⟩
  simp only [outcomeOf, hlogs, mapError_ok, ok_bind]
  rfl

theorem result_eq_verdict (settings : Settings) (bytecode callData : String) (revision : Int)
    (o : Outside) {b : Bench} (hu : b.files.Unused scratchPlace) :
    ((execute settings (.text bytecode) callData revision).run o b).1 =
      verdict settings (command settings (.text bytecode) callData revision)
        (o.machine b.asked (.text bytecode)) := by
  obtain ⟨events, hrun⟩ := @run_execute o b settings (.text bytecode) callData revision rfl hu
  exact congrArg Prod.fst hrun

/-- A run has an outcome exactly if the machine's reply tells one, and then that one; an exit code
other than 0 is reported with all that the driver printed, whatever it printed and dumped. -/
theorem execute_has_outcome_iff (settings : Settings) (bytecode callData : String) (revision : Int)
    (o : Outside) (b : Bench) (hu : b.files.Unused scratchPlace) :
    let result := ((execute settings (.text bytecode) callData revision).run o b).1
    let reply := o.machine b.asked (.text bytecode)
    ((∃ outcome, result = .ok outcome) ↔ ∃ e fields entries, Tells reply e fields entries) ∧
      (∀ e fields entries, Tells reply e fields entries →
        ∃ outcome, result = .ok outcome ∧ Told e fields entries outcome) ∧
      ∀ e, reply.reply = .ended e → e.code ≠ 0 → result = .error (.process {
        cause := .machineExit e.code e.errors
        command := command settings (.text bytecode) callData revision
        code := some e.code
        output := e.output
        errors := e.errors }) := by
  dsimp only
  rw [result_eq_verdict settings bytecode callData revision o hu]
  refine ⟨⟨fun ⟨outcome, h⟩ => tells_of_verdict h, fun ⟨e, fields, entries, h⟩ => ?_⟩,
    fun e fields entries h => h.verdict, fun e hended hcode => ?_⟩
  · obtain ⟨outcome, hok, -⟩ := h.verdict
    exact ⟨outcome, hok⟩
  · simp only [verdict, observed, hended, endedOf, hcode, ne_eq, not_false_eq_true, ite_true,
      error_bind]

end

/-! ## Dumps of plain text -/

theorem dumpHolds_of_allPlain {s : String} {v : Json} (hs : AllPlain s.toList)
    (hp : Json.parse s = .ok v) : DumpHolds s.toUTF8 v := by
  refine ⟨s, decode_of_allPlain hs, ?_⟩
  rw [unifyLines_of_allPlain hs, String.ofList_toList, hp]

theorem allPlain_print (v : Json) : AllPlain v.print.toList := by
  rw [Json.print, String.toList_ofList]
  exact Json.allPlain_printed v

/-- A dump of an entry with a number that is too long tells nothing. -/
theorem not_tells_of_overlong {reply : MachineReply} {name : String} {n : Int} (hname : Scalar name)
    (hn : maxDigits < Json.digitCount n)
    (hlogs : reply.logs = some (Json.array [.object [(name, .int n)]]).print.toUTF8) (e : Ended)
    (fields : Fields) (entries : List Json) : ¬ Tells reply e fields entries := by
  intro h
  obtain ⟨content, hcontent, text, hdecode, hparse⟩ := h.logs
  have hplain := allPlain_print (.array [.object [(name, .int n)]])
  rw [hlogs, Option.some.injEq] at hcontent
  rw [← hcontent, decode_of_allPlain hplain, Except.ok.injEq] at hdecode
  rw [← hdecode, unifyLines_of_allPlain hplain, String.ofList_toList,
    Json.parse_overlong_field hn hname] at hparse
  cases hparse

end Machine

namespace Sample

def success : Ended where
  output := "Result:   success\nOutput:   05\n"

def logged : MachineReply where
  reply := .ended success
  storage := some "\x7b\"0x0\": \"0x5\"\x7d".toUTF8
  logs := some "[\x7b\"topics\": [\"0x1\"]\x7d]".toUTF8

def replying (reply : MachineReply) : Outside :=
  { Outside.alone ⟨2024, 1, 1, 0, 0, 0, 0⟩ with machine := fun _ _ => reply }

theorem hasMarker_success :
    Report.HasMarker "Result:".toList success.output.toList :=
  ⟨[], ' ', "  success\nOutput:   05\n".toList, by decide, by decide⟩

theorem tells_logged : Machine.Tells logged success [("0x0", .text "0x5")]
    [.object [("topics", .array [.text "0x1"])]] where
  ended := rfl
  code := rfl
  status := hasMarker_success
  storage := by
    refine ⟨_, rfl, Machine.dumpHolds_of_allPlain (by decide) ?_⟩
    unfold Json.parse Json.parseWithin
    simp only [String.reduceToList]
    rfl
  logs := by
    refine ⟨_, rfl, Machine.dumpHolds_of_allPlain (by decide) ?_⟩
    unfold Json.parse Json.parseWithin
    simp only [String.reduceToList]
    rfl
  readable := List.forall_mem_singleton.mpr fun v hv => by cases hv; exact ⟨_, rfl⟩

end Sample

theorem Machine.execute_has_outcome_of_logged_run : ∃ outcome,
    ((Machine.execute {} (.text "60") "0x" 13).run (Sample.replying Sample.logged) {}).1 =
      .ok outcome ∧
    outcome.status = "success" ∧ outcome.output = "05" ∧
    outcome.storage = .object [("0x0", .text "0x5")] ∧ outcome.logs = [⟨"", ["0x1"], ""⟩] := by
  obtain ⟨-, htold, -⟩ := Machine.execute_has_outcome_iff {} "60" "0x" 13
    (Sample.replying Sample.logged) {} (List.forall_mem_nil _)
  obtain ⟨outcome, hrun, hreport, hstorage, hlogs⟩ := htold _ _ _ Sample.tells_logged
  have hread : readReport Sample.success.output = some ("success", "05") := by decide +kernel
  rw [hread, Option.some.injEq, Prod.mk.injEq] at hreport
  refine ⟨outcome, hrun, hreport.1.symm, hreport.2.symm, hstorage, ?_⟩
  cases hlog : outcome.logs with
  | nil => rw [hlog] at hlogs; cases hlogs
  | cons entry rest =>
    rw [hlog] at hlogs
    obtain _ | ⟨hentry, ⟨⟩⟩ := hlogs
    cases hentry
    rfl

/-- Dumps that are the JSON text of an object and of an array of objects do not always give an
outcome: here an object has a whole number of 4301 digits. -/
theorem Machine.overlong_number_without_outcome : ¬ ∀ (settings : Settings)
    (bytecode callData : String) (revision : Int) (o : Outside) (b : Bench) (e : Ended)
    (fields : Fields) (entries : List Json) (storage logs : ByteArray),
    b.files.Unused Machine.scratchPlace →
    o.machine b.asked (.text bytecode) = ⟨.ended e, some storage, some logs⟩ → e.code = 0 →
    Report.HasMarker "Result:".toList e.output.toList →
    Text.encode (Json.object fields).print = .ok storage →
    Text.encode (Json.array entries).print = .ok logs →
    (∀ raw ∈ entries, LogEntry.Readable raw) →
    ∃ outcome, ((Machine.execute settings (.text bytecode) callData revision).run o b).1 =
      .ok outcome := by
  intro h
  have hencoded : ∀ v : Json, Text.encode v.print = .ok v.print.toUTF8 := fun v =>
    encode_of_low (Machine.allPlain_print v).low
  obtain ⟨outcome, hrun⟩ := h {} "60" "0x" 13
    (Sample.replying ⟨.ended Sample.success, some (Json.object []).print.toUTF8,
      some (Json.array [.object [("extra", .int Json.overlong)]]).print.toUTF8⟩) {} Sample.success []
    [.object [("extra", .int Json.overlong)]] _ _ (List.forall_mem_nil _) rfl rfl
    Sample.hasMarker_success (hencoded _) (hencoded _)
    (List.forall_mem_singleton.mpr fun v hv => by cases hv)
  rw [Machine.result_eq_verdict {} "60" "0x" 13 _ (b := {}) (List.forall_mem_nil _)] at hrun
  obtain ⟨e, fields, entries, htells⟩ := Machine.tells_of_verdict hrun
  exact Machine.not_tells_of_overlong (scalar_of_allPlain (by decide)) Json.maxDigits_lt_overlong rfl
    e fields entries htells

end BackendFuzz
