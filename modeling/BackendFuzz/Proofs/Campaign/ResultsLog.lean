import BackendFuzz.Proofs.Campaign.Iterations
import BackendFuzz.Proofs.Divergence.Origins
import BackendFuzz.Proofs.Json.Roundtrip

/-!
# The results file as a log

A run only adds to its results file: the lines of the iterations that are made to
their end, in order. Each record has one line of printable ASCII, and from that
line the record is read back, if its texts are Unicode and its run gave no binary
number.
-/

namespace BackendFuzz

open Session

/-! ## Storage of runs -/

namespace Machine

theorem yields_readDump (path : Path) (what : String) :
    (readDump path what).Yields (Json.Fits Json.maxDepth) := by
  refine yields_bind fun text => yields_ofExcept fun v hv => ?_
  cases hparse : Json.parse text with
  | error fault => rw [hparse] at hv; cases hv
  | ok v' =>
    rw [hparse] at hv
    cases hv
    exact Json.fits_parse hparse

theorem outcomeOf_storage {output status shown : String} {storage logs : Json} {run : RunOutcome}
    (h : outcomeOf output status shown storage logs = .ok run) : run.storage = storage := by
  unfold outcomeOf at h
  split at h
  · obtain ⟨entries, -, h⟩ := bind_ok_inv h
    cases h
    rfl
  · cases h

variable {settings : Settings} {bytecode : Json} {callData : String} {revision : Int}

theorem yields_execute : (execute settings bytecode callData revision).Yields
    fun run => run.storage.Fits Json.maxDepth := by
  have hobserve : (observe settings bytecode callData revision).Yields
      fun seen => seen.2.2.2.1.Fits Json.maxDepth := by
    refine yields_bind fun ended => ?_
    split
    · exact yields_throw _
    · exact yields_bind_of (yields_readDump _ _) fun storage hstorage =>
        yields_bind fun logs => yields_pure hstorage
  rw [execute_eq]
  refine yields_bind fun _ => ?_
  refine yields_bind_of (yields_bind fun _ => yields_ensuring hobserve _) fun seen hseen => ?_
  exact yields_ofExcept fun run hrun => (outcomeOf_storage hrun).symm ▸ hseen

end Machine

def BackendResult.Fits (r : BackendResult) : Prop :=
  ∀ run, r.run = some run → run.storage.Fits Json.maxDepth

namespace Campaign

variable {c : Campaign} {settings : Settings} {o : Outside}

theorem fits_tryBackends (hc : c.Equipped settings) (variant : Variant) (plan : Option CallPlan) :
    (c.tryBackends variant plan).Yields fun results => ∀ result ∈ results, result.Fits := by
  have hexecute : ∀ bytecode callData revision, (c.tools.execute bytecode callData revision).Yields
      fun run => run.storage.Fits Json.maxDepth := by
    rw [hc.executes]
    exact fun _ _ _ => Machine.yields_execute
  exact yields_mapM fun backend _ =>
    (yields_tryBackend (fun _ _ _ _ => trivial) hexecute plan).mono
      fun result (h : True ∧ result.Fits) => h.2

end Campaign

/-! ## Records that fit -/

theorem LogEntry.fits (e : LogEntry) : e.toJson.Fits 2 := by
  have hnames : ["address", "topics", "data"].Nodup := by decide
  refine .object hnames fun f hf => ?_
  simp only [List.mem_cons, List.not_mem_nil, or_false] at hf
  rcases hf with rfl | rfl | rfl
  · exact .text
  · exact Json.fits_texts 0 _
  · exact .text

theorem RunOutcome.fits {run : RunOutcome} (h : run.storage.Fits Json.maxDepth) :
    (Json.object run.fields).Fits (Json.maxDepth + 1) := by
  have hresult : (Json.object [("result", .text run.status), ("output", .text run.output)]).Fits 1 := by
    have hnames : ["result", "output"].Nodup := by decide
    refine .object hnames fun f hf => ?_
    simp only [List.mem_cons, List.not_mem_nil, or_false] at hf
    rcases hf with rfl | rfl <;> exact .text
  have hlogs : (Json.array (run.logs.map LogEntry.toJson)).Fits 3 := by
    refine .array fun v hv => ?_
    obtain ⟨e, -, rfl⟩ := List.mem_map.mp hv
    exact e.fits
  have hnames : ["result", "storage", "logs"].Nodup := by decide
  refine .object hnames fun f hf => ?_
  simp only [fields, List.mem_cons, List.not_mem_nil, or_false] at hf
  rcases hf with rfl | rfl | rfl
  · exact hresult.mono (by decide)
  · exact h
  · exact hlogs.mono (by decide)

namespace DivergenceRecord

theorem names_optional (name : String) (v : Option Json) :
    ((optional name v).map (·.1)).Sublist [name] := by
  cases v with
  | none => exact List.nil_sublist _
  | some v => exact List.Sublist.refl _

def fieldNames : List String :=
  ["failure", "file", "version", "error", "functionName", "encodedCall", "callParameters",
    "runResult", "kinds"]

theorem names_sublist (r : DivergenceRecord) : (r.fields.map (·.1)).Sublist fieldNames := by
  simp only [fields, List.map_append]
  exact (((((((List.Sublist.refl ["failure", "file", "version"]).append
    (names_optional _ _)).append (names_optional _ _)).append (names_optional _ _)).append
    (names_optional _ _)).append (names_optional _ _)).append (names_optional _ _))

theorem mem_fields {r : DivergenceRecord} {f : String × Json} (h : f ∈ r.fields) :
    (∃ s ∈ [r.category.tag, r.file, r.version] ++ r.error.toList ++ r.functionName.toList ++
      r.encodedCall.toList, f.2 = .text s) ∨
    (∃ ss ∈ r.callParameters.toList ++ r.kinds.toList, f.2 = Json.texts ss) ∨
    ∃ fields, r.runResult = some fields ∧ f.2 = .object fields := by
  -- One case for each field, in their order.
  simp only [fields, optional, List.mem_append, List.mem_cons, List.not_mem_nil, or_false,
    Option.mem_toList, Option.map_eq_some_iff] at h
  obtain ((((((rfl | rfl | rfl) | ⟨v, ⟨a, ha, rfl⟩, rfl⟩) | ⟨v, ⟨a, ha, rfl⟩, rfl⟩) |
    ⟨v, ⟨a, ha, rfl⟩, rfl⟩) | ⟨v, ⟨a, ha, rfl⟩, rfl⟩) | ⟨v, ⟨a, ha, rfl⟩, rfl⟩) |
    ⟨v, ⟨a, ha, rfl⟩, rfl⟩ := h
  · exact Or.inl ⟨_, by simp, rfl⟩
  · exact Or.inl ⟨_, by simp, rfl⟩
  · exact Or.inl ⟨_, by simp, rfl⟩
  · exact Or.inl ⟨a, by simp [ha], rfl⟩
  · exact Or.inl ⟨a, by simp [ha], rfl⟩
  · exact Or.inl ⟨a, by simp [ha], rfl⟩
  · exact Or.inr (Or.inl ⟨a, by simp [ha], rfl⟩)
  · exact Or.inr (Or.inr ⟨a, ha, rfl⟩)
  · exact Or.inr (Or.inl ⟨a, by simp [ha], rfl⟩)

theorem toJson_fits {r : DivergenceRecord} {room : Nat} (hroom : 0 < room)
    (h : ∀ fields, r.runResult = some fields → (Json.object fields).Fits room) :
    r.toJson.Fits (room + 1) := by
  refine .object (r.names_sublist.nodup (by decide)) fun f hf => ?_
  rcases mem_fields hf with ⟨s, -, hv⟩ | ⟨ss, -, hv⟩ | ⟨fields, hfields, hv⟩
  · exact hv ▸ .text
  · exact hv ▸ (Json.fits_texts 0 ss).mono hroom
  · exact hv ▸ h fields hfields

theorem toJson_exact {r : DivergenceRecord}
    (htexts : ∀ s ∈ [r.file, r.version] ++ r.error.toList ++ r.functionName.toList ++
      r.encodedCall.toList, Text.Scalar s)
    (hlists : ∀ ss ∈ r.callParameters.toList ++ r.kinds.toList, ∀ s ∈ ss, Text.Scalar s)
    (hrun : ∀ fields, r.runResult = some fields → (Json.object fields).Exact) :
    r.toJson.Exact := by
  have htag : Text.Scalar r.category.tag := by
    cases r.category <;> exact Text.scalar_of_allPlain (by decide)
  refine .object (fun f hf => ?_) fun f hf => ?_
  · have hname : f.1 ∈ fieldNames := r.names_sublist.subset (List.mem_map_of_mem hf)
    have hplain : ∀ n ∈ fieldNames, Text.AllPlain n.toList := by decide
    exact Text.scalar_of_allPlain (hplain f.1 hname)
  · rcases mem_fields hf with ⟨s, hs, hv⟩ | ⟨ss, hss, hv⟩ | ⟨fields, hfields, hv⟩
    · rw [hv]
      rcases List.mem_cons.mp hs with rfl | hs
      · exact .text htag
      · exact .text (htexts s hs)
    · rw [hv]
      exact Json.exact_texts (hlists ss hss)
    · rw [hv]
      exact hrun fields hfields

end DivergenceRecord

theorem Origin.fits {results : List BackendResult} {file : String} {plan : Option CallPlan}
    {record : DivergenceRecord} (h : Origin results file plan record)
    (hresults : ∀ result ∈ results, result.Fits) : record.toJson.Fits (Json.maxDepth + 2) := by
  have hnone : record.runResult = none → record.toJson.Fits (Json.maxDepth + 2) := fun hrun =>
    DivergenceRecord.toJson_fits (by decide) fun fields hfields => by cases hrun.symm.trans hfields
  have hrun : ∀ run : RunOutcome, run.storage.Fits Json.maxDepth →
      record.runResult = some run.fields → record.toJson.Fits (Json.maxDepth + 2) := by
    intro run hstorage hrun
    refine DivergenceRecord.toJson_fits (by decide) fun fields hfields => ?_
    cases hrun.symm.trans hfields
    exact RunOutcome.fits hstorage
  cases h with
  | rejected hr hs => exact hnone rfl
  | notRun hr hp hm hc =>
    obtain ⟨call, -, rfl⟩ := callRecord_inv hc
    refine hrun .noOp ?_ rfl
    exact Json.Fits.object List.nodup_nil (List.forall_mem_nil _)
  | broken hr hp he hc =>
    obtain ⟨call, -, rfl⟩ := callRecord_inv hc
    exact hnone rfl
  | diverged hr hp hran hc =>
    obtain ⟨call, -, rfl⟩ := callRecord_inv hc
    exact hrun _ (hresults _ hr _ hran) rfl

/-! ## The log of a run -/

namespace Campaign

/-- The results file after a run, against what it was before: the lines of the iterations that were
made to their end were added in order, and each can be read back. -/
structure Logged (c : Campaign) (o : Outside) (its : List Iteration) (b b' : Bench) : Prop where
  numbered : its.map (·.index) = List.range its.length
  whole : ∀ it ∈ its.dropLast, ∃ report, it.outcome = .ok report
  there : its ≠ [] → ∃ place content, b'.files.locate c.resultsPath = .ok place ∧
    b'.files.at? place = some (.file content)
  added : ∀ place, b'.files.locate c.resultsPath = .ok place →
    b'.files.contentAt place = b.files.contentAt place ++ (linesOf (records its)).toUTF8
  classified : ∀ it ∈ its, ∀ report, it.outcome = .ok report →
    ∃ (tested : Bench) (t : c.Made o it.index it.before tested), t.report = report ∧
      classify t.results (c.variantPath it.index).text t.plan = .ok report.records
  oneLine : ∀ record ∈ records its, record.line = record.toJson.print ++ "\n" ∧
    Text.AllPlain record.toJson.print.toList
  fits : ∀ record ∈ records its, record.toJson.Fits (Json.maxDepth + 2)
  readBack : ∀ record ∈ records its, record.toJson.Exact → ∀ room, record.toJson.Fits room →
    Json.parseWithin room record.line = .ok record.toJson

theorem sameFiles_of_unopened {r : ResultsFile} {o : Outside} {b b' : Bench} {fault : Fault}
    (h : r.opened.run o b = (.error fault, b')) : b.files.SameFiles b'.files := by
  unfold ResultsFile.opened at h
  have hsame := b.files.furnish_sameFiles r.path.parent
  rcases run_furnish_cases o b r.path.parent with
    ⟨fault', files, hrun, rfl | rfl, -⟩ | ⟨files, hmade, hrun⟩
  · rw [run_bind_error hrun] at h
    cases h
    exact refl_of FileStore.SameFiles _
  · rw [run_bind_error hrun] at h
    cases h
    exact hsame
  · rw [run_bind_ok hrun] at h
    rcases run_changeFiles_cases o { b with files } r.path FileStore.touchFile with
      ⟨fault', htouch, -⟩ | ⟨files', -, htouch⟩
    · rw [run_bind_error htouch] at h
      cases h
      rwa [hmade] at hsame
    · rw [run_bind_ok htouch] at h
      cases h

variable {c : Campaign} {settings : Settings} {o : Outside}

section
variable {budget : Nat} {b b' : Bench} {its : List Iteration} {r : Except Fault CampaignEnd}

theorem Runs.numbered (h : c.Runs o budget b its r b') :
    its.map (·.index) = List.range its.length ∧
      ∀ it ∈ its.dropLast, ∃ report, it.outcome = .ok report := by
  cases h with
  | refused hd => exact ⟨rfl, List.forall_mem_nil _⟩
  | made hd h hlast => exact ⟨h.numbered, h.cut_last.1⟩

theorem Runs.added (hc : c.Equipped settings) (h : c.Runs o budget b its r b') :
    (its ≠ [] → ∃ place content, b'.files.locate c.resultsPath = .ok place ∧
      b'.files.at? place = some (.file content)) ∧
    ∀ place, b'.files.locate c.resultsPath = .ok place →
      b'.files.contentAt place = b.files.contentAt place ++ (linesOf (records its)).toUTF8 := by
  have hnone : ∀ content : ByteArray, content = content ++ (linesOf (records [])).toUTF8 :=
    fun content => ByteArray.append_empty.symm
  cases h with
  | refused hd => exact ⟨fun h => absurd rfl h, fun place _ => hnone _⟩
  | @made deadline its stats ending b₁ b' r hd h hlast =>
    have hfiles : b'.files = b₁.files := by
      obtain ⟨r', b₂, hrun, -, hfiles⟩ := @run_conclude o (o.clock b.readings) stats b₁
      cases hlast.symm.trans hrun
      exact hfiles
    rw [hfiles]
    -- A file that could not be opened has kept its content, and there are no iterations.
    cases h with
    | unopened hopen =>
      refine ⟨fun h => absurd rfl h, fun place _ => ?_⟩
      rw [(sameFiles_of_unopened hopen).contentAt]
      exact hnone _
    | @opened results b₀ b₁ its stats ending hopen hits =>
      obtain ⟨d, place, files, events, rfl, -, ho⟩ := run_opened_open hc hopen
      obtain ⟨results', hlast⟩ := hits.written hc ho
      refine ⟨fun _ => ⟨place, _, hlast.located, hlast.holds⟩, fun place' hplace' => ?_⟩
      cases hlast.located.symm.trans hplace'
      rw [FileStore.contentAt, hlast.holds]
      rfl

end

theorem Iteration.Ran.fits (hc : c.Equipped settings) {it : Iteration} (h : it.Ran c o)
    {report : TestReport} (hreport : it.outcome = .ok report) :
    ∀ record ∈ report.records, record.toJson.Fits (Json.maxDepth + 2) := by
  obtain ⟨tested, t, rfl⟩ := h.made hreport
  intro record hrecord
  exact (origin_of_mem (judge_inv t.judges).1 hrecord).fits
    (fits_tryBackends hc t.variant t.plan o t.planned t.results (by rw [t.tries]))

theorem mem_records {its : List Iteration} {record : DivergenceRecord}
    (h : record ∈ records its) :
    ∃ it ∈ its, ∃ report, it.outcome = .ok report ∧ record ∈ report.records := by
  obtain ⟨report, hreport, hrecord⟩ := List.mem_flatMap.mp h
  obtain ⟨it, hit, houtcome⟩ := List.mem_filterMap.mp hreport
  refine ⟨it, hit, report, ?_, hrecord⟩
  cases hit : it.outcome with
  | error fault => rw [hit] at houtcome; cases houtcome
  | ok report' => rw [hit] at houtcome; cases houtcome; rfl

theorem mem_records_of {its : List Iteration} {it : Iteration} (hit : it ∈ its)
    {report : TestReport} (hreport : it.outcome = .ok report) {record : DivergenceRecord}
    (hrecord : record ∈ report.records) : record ∈ records its :=
  List.mem_flatMap.mpr ⟨report, List.mem_filterMap.mpr ⟨it, hit, by rw [hreport]; rfl⟩, hrecord⟩

/-- However a run ends, its results file is a log of the iterations that were made to their end. -/
theorem every_run_logged (hc : c.Equipped settings) (o : Outside) (budget : Nat) (b : Bench) :
    ∃ its r b', c.Runs o budget b its r b' ∧ (c.run budget).run o b = (r, b') ∧
      c.Logged o its b b' := by
  obtain ⟨its, r, b', hruns, hrun⟩ := run_spec c o budget b
  have hadded := hruns.added hc
  refine ⟨its, r, b', hruns, hrun,
    { numbered := hruns.numbered.1
      whole := hruns.numbered.2
      there := hadded.1
      added := hadded.2
      classified := fun it hit report hreport => ?_
      oneLine := fun record _ => ⟨rfl, ?_⟩
      fits := fun record hrecord => ?_
      readBack := fun record _ he room hf => Json.parseWithin_print he hf }⟩
  · obtain ⟨tested, t, rfl⟩ := (hruns.ran it hit).made hreport
    exact ⟨tested, t, rfl, (judge_inv t.judges).1⟩
  · rw [Json.print, String.toList_ofList]
    exact Json.allPlain_printed _
  · obtain ⟨it, hit, report, hreport, hrecord⟩ := mem_records hrecord
    exact (hruns.ran it hit).fits hc hreport record hrecord

end Campaign

namespace Sample

theorem exact_record : record.toJson.Exact := by
  have htexts : ∀ s ∈ [record.file, record.version] ++ record.error.toList ++
      record.functionName.toList ++ record.encodedCall.toList, Text.AllPlain s.toList := by
    decide +kernel
  refine DivergenceRecord.toJson_exact (fun s hs => Text.scalar_of_allPlain (htexts s hs))
    (fun ss hss s hs => ?_) fun fields hfields => by cases hfields
  cases List.mem_singleton.mp hss
  cases hs

end Sample

theorem log_of_one_record : ∃ e b',
    (Sample.campaign.run 0).run Sample.divided Sample.benchAlone = (.ok e, b') ∧
    b'.files.contentAt Sample.resultsPlace = Sample.record.line.toUTF8 ∧
    Json.parseWithin (Json.maxDepth + 2) Sample.record.line = .ok Sample.record.toJson := by
  obtain ⟨its, r, b', hruns, hrun, hlogged⟩ := Campaign.every_run_logged Sample.equipped
    Sample.divided 0 Sample.benchAlone
  obtain ⟨⟨e, rfl⟩, it, rfl, -, houtcome, -⟩ :=
    Sample.runs_reported Sample.usable_benchAlone hruns
  have hrecords : Campaign.records [it] = [Sample.record] := by
    simp [Campaign.records, Campaign.reports, houtcome, Except.toOption]
  have hmem : Sample.record ∈ Campaign.records [it] := by
    rw [hrecords]
    exact List.mem_singleton_self _
  have hlocate : b'.files.locate Sample.campaign.resultsPath = .ok Sample.resultsPlace :=
    FileStore.locate_name _ (by decide) (by decide) (by decide)
  have hbefore : Sample.benchAlone.files.contentAt Sample.resultsPlace = .empty := rfl
  have hlines : Campaign.linesOf [Sample.record] = Sample.record.line := by
    simp [Campaign.linesOf]
  refine ⟨e, b', hrun, ?_, hlogged.readBack _ hmem Sample.exact_record _ (hlogged.fits _ hmem)⟩
  rw [hlogged.added _ hlocate, hrecords, hbefore, hlines, ByteArray.empty_append]

end BackendFuzz
