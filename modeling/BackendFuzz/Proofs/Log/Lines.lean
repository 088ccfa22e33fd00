import BackendFuzz.Log.Record
import BackendFuzz.Proofs.Json.Roundtrip

/-!
# Log lines tell their records

A line is printable ASCII whatever its record holds, so no message makes a line
of its own. It is read as an object with the record's level, logger and message
and with an entry for just what else the record carries. Only where the two
halves of a character stand next to each other is that character read.
-/

namespace BackendFuzz

open Text Json

theorem LogLevel.allPlain_nameOf (n : Int) : AllPlain (LogLevel.nameOf n).toList := by
  unfold LogLevel.nameOf
  split_ifs
  all_goals first | decide | skip
  show AllPlain ("Level " ++ toString n).toList
  rw [String.toList_append]
  exact AllPlain.append (by decide) (allPlain_int n)

theorem Fields.get?_append (fields more : Fields) (name : String) :
    Fields.get? (fields ++ more) name = (fields.get? name).or (more.get? name) :=
  List.lookup_append

namespace LogRecord

variable {r : LogRecord}

/-! ## Fields of a record -/

theorem names_optional (name : String) (v : Option Json) :
    ((optional name v).map (·.1)).Sublist [name] := by
  cases v with
  | none => exact List.nil_sublist _
  | some v => exact List.Sublist.refl _

def names : List String :=
  ["timestamp", "level", "logger", "message", "module", "function", "line", "exception",
    "iteration", "backend", "duration_ms"]

theorem names_fields (r : LogRecord) : (r.fields.map (·.1)).Sublist names := by
  have hfront : (["timestamp", "level", "logger", "message"] : List String).Sublist _ := .refl _
  have horigin : (r.originFields.map (·.1)).Sublist ["module", "function", "line"] := by
    unfold originFields
    split
    · exact .refl _
    · exact List.nil_sublist _
  have hfailure : (r.failureFields.map (·.1)).Sublist ["exception"] := by
    unfold failureFields
    split
    · exact .refl _
    · exact List.nil_sublist _
  simp only [fields, List.map_append]
  exact ((((hfront.append horigin).append hfailure).append (names_optional _ _)).append
    (names_optional _ _)).append (names_optional _ _)

theorem get?_optional (name name' : String) (v : Option Json) :
    Fields.get? (optional name v) name' = if name' = name then v else none := by
  cases v with
  | none => simp [optional, Fields.get?]
  | some v =>
    by_cases h : name' = name
    · simp [optional, Fields.get?, h]
    · simp [optional, Fields.get?, h, List.lookup_cons, beq_eq_false_iff_ne.mpr h]

theorem get?_originFields (r : LogRecord) (name : String)
    (h : name ∉ ["module", "function", "line"]) : r.originFields.get? name = none := by
  simp only [List.mem_cons, List.not_mem_nil, or_false, not_or] at h
  unfold originFields
  split
  · simp [Fields.get?, List.lookup_cons, beq_eq_false_iff_ne.mpr h.1,
      beq_eq_false_iff_ne.mpr h.2.1, beq_eq_false_iff_ne.mpr h.2.2]
  · rfl

theorem get?_failureFields (r : LogRecord) (name : String) :
    r.failureFields.get? name = if name = "exception" then r.failure.map fun f =>
      .object [("type", .text f.kind), ("message", .text f.message), ("traceback", .text (r.trace f))]
      else none := by
  unfold failureFields
  cases r.failure with
  | none => simp [Fields.get?]
  | some f => exact get?_optional "exception" name (some _)

/-! ## What a line tells -/

/-- Its whole numbers are short enough, and its extras flat enough, to be read. -/
structure Bounded (r : LogRecord) : Prop where
  line : ∀ o ∈ r.origin, digitCount o.line ≤ maxDigits
  extras : ∀ v, v ∈ r.iteration ∨ v ∈ r.backend ∨ v ∈ r.durationMs →
    v.Canonical ∧ v.Fits (maxDepth - 1)

/-- Fields that say what the record says, with an entry for just what it carries. -/
structure Tells (r : LogRecord) (told : Fields) : Prop where
  level : told.get? "level" = some (.text r.levelName)
  logger : told.get? "logger" = some (readBack (.text r.logger))
  message : told.get? "message" = some (readBack (.text r.message))
  iteration : told.get? "iteration" = r.iteration.map readBack
  backend : told.get? "backend" = r.backend.map readBack
  durationMs : told.get? "duration_ms" = r.durationMs.map readBack
  exception : told.get? "exception" = r.failure.map fun f =>
    .object [("type", readBack (.text f.kind)), ("message", readBack (.text f.message)),
      ("traceback", readBack (.text (r.trace f)))]

theorem forall_optional {P : Json → Prop} {name : String} {v : Option Json} (h : ∀ w ∈ v, P w) :
    ∀ f ∈ optional name v, P f.2 := by
  cases v with
  | none => exact List.forall_mem_nil _
  | some w => exact List.forall_mem_singleton.mpr (h w rfl)

/-- A property of the fields is one of texts and of what the record brings itself. -/
theorem forall_fields {P : Json → Prop} (htext : ∀ s, P (.text s)) (hnull : P .null)
    (hline : ∀ o ∈ r.origin, P (.int o.line)) (hfailure : ∀ s s' s'', P (.object
      [("type", .text s), ("message", .text s'), ("traceback", .text s'')]))
    (hextras : ∀ v, v ∈ r.iteration ∨ v ∈ r.backend ∨ v ∈ r.durationMs → P v) :
    ∀ f ∈ r.fields, P f.2 := by
  have horigin : ∀ f ∈ r.originFields, P f.2 := by
    unfold originFields
    cases ho : r.origin with
    | none => exact List.forall_mem_nil _
    | some o =>
      have hfunction : P ((o.function.map Json.text).getD .null) := by
        cases o.function with
        | none => exact hnull
        | some s => exact htext s
      simp only [List.forall_mem_cons]
      exact ⟨htext _, hfunction, hline o ho, List.forall_mem_nil _⟩
  have hfailure : ∀ f ∈ r.failureFields, P f.2 := by
    unfold failureFields
    cases r.failure with
    | none => exact List.forall_mem_nil _
    | some f => exact List.forall_mem_singleton.mpr (hfailure _ _ _)
  simp only [fields, List.forall_mem_append, List.forall_mem_cons]
  refine ⟨⟨⟨⟨⟨⟨htext _, htext _, htext _, htext _, List.forall_mem_nil _⟩, horigin⟩, hfailure⟩, ?_⟩,
    ?_⟩, ?_⟩
  · exact forall_optional fun v hv => hextras v (Or.inl hv)
  · exact forall_optional fun v hv => hextras v (Or.inr (Or.inl hv))
  · exact forall_optional fun v hv => hextras v (Or.inr (Or.inr hv))

theorem canonical_fields (h : r.Bounded) : (Json.object r.fields).Canonical := by
  have hnames : ∀ name ∈ names, Unpaired name.toList := by decide
  have hentry : ∀ name ∈ ["type", "message", "traceback"], Unpaired name.toList := by decide
  refine .object (fun f hf => hnames _ ((names_fields r).subset (List.mem_map_of_mem hf))) ?_
  refine forall_fields (fun _ => .text) .null (fun _ _ => .int) (fun s s' s'' => ?_)
    fun v hv => (h.extras v hv).1
  simp only [List.forall_mem_cons] at hentry
  refine .object ?_ ?_
  · simpa [List.forall_mem_cons] using hentry
  · simp only [List.forall_mem_cons]
    exact ⟨.text, .text, .text, List.forall_mem_nil _⟩

theorem fits_fields (h : r.Bounded) : (Json.object r.fields).Fits maxDepth := by
  have hnames : names.Nodup := by decide
  have hentry : ["type", "message", "traceback"].Nodup := by decide
  refine .object (hnames.sublist (names_fields r)) ?_
  refine forall_fields (fun _ => .text) .null (fun o ho => .int (h.line o ho)) (fun s s' s'' => ?_)
    fun v hv => (h.extras v hv).2
  refine .object hentry ?_
  simp only [List.forall_mem_cons]
  exact ⟨.text, .text, .text, List.forall_mem_nil _⟩

theorem parse_jsonLine (h : r.Bounded) :
    Json.parse r.jsonLine = .ok (.object (readBackFields r.fields)) := by
  have hparse := (readsAs_readBack (canonical_fields h) (fits_fields h)).parseWithin (Or.inl rfl)
  rwa [String.append_empty] at hparse

/-- A field behind those that every line has and those of the origin is one of the record's own. -/
theorem get?_fields (r : LogRecord) (name : String) (h : name ∉ names.take 7) :
    r.fields.get? name =
      (((r.failureFields.get? name).or (Fields.get? (optional "iteration" r.iteration) name)).or
        (Fields.get? (optional "backend" r.backend) name)).or
          (Fields.get? (optional "duration_ms" r.durationMs) name) := by
  simp only [names, List.take_succ_cons, List.take_zero, List.mem_cons, List.not_mem_nil, or_false,
    not_or] at h
  obtain ⟨htime, hlevel, hlogger, hmessage, horigin⟩ := h
  have hfront : Fields.get? [("timestamp", .text r.time.iso), ("level", .text r.levelName),
      ("logger", .text r.logger), ("message", .text r.message)] name = none := by
    simp [Fields.get?, List.lookup_cons, beq_eq_false_iff_ne.mpr htime,
      beq_eq_false_iff_ne.mpr hlevel, beq_eq_false_iff_ne.mpr hlogger,
      beq_eq_false_iff_ne.mpr hmessage]
  have horigin := r.get?_originFields name (by simpa using horigin)
  simp only [fields, Fields.get?_append, hfront, horigin, Option.none_or]

theorem tells_fields (r : LogRecord) : r.Tells (readBackFields r.fields) := by
  have hlevel : readBack (.text r.levelName) = .text r.levelName := by
    have hplain := LogLevel.allPlain_nameOf r.level
    exact Readable.readBack_eq (.text (unpaired_of_scalar (scalar_of_allPlain hplain)))
  constructor
  all_goals rw [get?_readBackFields]
  · exact congrArg some hlevel
  · rfl
  · rfl
  · simp [r.get?_fields "iteration" (by decide), get?_failureFields, get?_optional]
  · simp [r.get?_fields "backend" (by decide), get?_failureFields, get?_optional]
  · simp [r.get?_fields "duration_ms" (by decide), get?_failureFields, get?_optional]
  · simp only [r.get?_fields "exception" (by decide), get?_failureFields, get?_optional]
    cases r.failure with
    | none => rfl
    | some f => rfl

/-- The line of a record is printable ASCII, so it is one line, and it is read as an object that
tells the record. -/
theorem line_tells_record (r : LogRecord) : AllPlain r.jsonLine.toList ∧
    (r.Bounded → ∃ told, Json.parse r.jsonLine = .ok (.object told) ∧ r.Tells told) ∧
    ∀ v : Json, v.Readable → v.readBack = v := by
  refine ⟨?_, fun h => ⟨_, parse_jsonLine h, r.tells_fields⟩, fun v hv => hv.readBack_eq⟩
  rw [jsonLine, Json.print, String.toList_ofList]
  exact allPlain_printed _

end LogRecord

namespace Sample

def noisy : LogRecord where
  time := ⟨2024, 1, 2, 3, 4, 5, 678901⟩
  level := 40
  logger := "solc_fuzz"
  message := "a\n\x7b\"level\": \"INFO\"\x7d\x00\x7f\u00e9😀"
  origin := some ⟨"/x/mod.py", none, 10⟩
  failure := some ⟨"ValueError", "bad\r\nvalue"⟩
  traceback := some "Traceback (most recent call last):\n  File \"/x/mod.py\", line 10\nValueError: bad"
  iteration := some (.int 3)
  backend := some (.text "0.8.27")
  durationMs := some (.real (Binary64.ofDecimal false 125 (-1)))

def halved : LogRecord where
  time := ⟨2024, 1, 2, 3, 4, 5, 678901⟩
  level := 20
  logger := "solc_fuzz"
  message := String.ofList [Text.standIn 0xD83D, Text.standIn 0xDC80]
  origin := some ⟨"/x/mod.py", none, 10⟩

end Sample

namespace LogRecord

theorem line_tells_noisy_record : Sample.noisy.Bounded ∧ ∃ told,
    Json.parse Sample.noisy.jsonLine = .ok (.object told) ∧ Sample.noisy.Tells told := by
  have hbounded : Sample.noisy.Bounded := by
    refine ⟨?_, ?_⟩
    · rintro o ⟨⟩
      decide
    · rintro v (⟨⟨⟩⟩ | ⟨⟨⟩⟩ | ⟨⟨⟩⟩)
      · exact ⟨.int, .int (by decide)⟩
      · exact ⟨.text, .text⟩
      · exact ⟨.real (Binary64.canonical_ofDecimal _ _ _), .real⟩
  exact ⟨hbounded, (line_tells_record Sample.noisy).2.1 hbounded⟩

/-- Two halves of a character next to each other are read as the character. -/
theorem halves_told_as_one : ¬ ∃ told : Fields,
    Json.parse Sample.halved.jsonLine = .ok (.object told) ∧
      told.get? "message" = some (.text Sample.halved.message) := by
  have hbounded : Sample.halved.Bounded := by
    refine ⟨?_, ?_⟩
    · rintro o ⟨⟩
      decide
    · rintro v (⟨⟨⟩⟩ | ⟨⟨⟩⟩ | ⟨⟨⟩⟩)
  rintro ⟨told, hparse, hmessage⟩
  rw [parse_jsonLine hbounded] at hparse
  cases hparse
  rw [Sample.halved.tells_fields.message] at hmessage
  exact absurd (Json.text.inj (Option.some.inj hmessage)) (by decide)

end LogRecord

end BackendFuzz
