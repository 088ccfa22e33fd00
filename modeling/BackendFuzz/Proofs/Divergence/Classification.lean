import BackendFuzz.Proofs.Divergence.Findings

/-!
# Classification of a variant

Which records classification gives, exactly: one for each finding, no backend
twice, never the base. Whether a difference in status alone is reported.
-/

namespace BackendFuzz

/-! ## Selectors that are texts -/

namespace CallPlan

/-- The table has a text for the plan's signature, or nothing. -/
def Fits (p : CallPlan) (s : Selectors) : Prop :=
  ∀ v, s.lookup p.signature = some v → v = .null ∨ ∃ t, v = .text t

def callText? (p : CallPlan) (s : Selectors) : Option String :=
  match s.lookup p.signature with
  | some (.text t) => some ("0x" ++ String.ofList (withoutMark t.toList) ++ p.encoded)
  | _ => none

theorem callData_of_fits {p : CallPlan} {s : Selectors} (h : p.Fits s) :
    p.callData s = .ok (p.callText? s) := by
  unfold callData callText?
  cases hl : s.lookup p.signature with
  | none => rfl
  | some v => rcases h v hl with rfl | ⟨t, rfl⟩ <;> rfl

end CallPlan

/-! ## The records of findings -/

namespace Finding

def callReport (category : DivergenceCategory) (file : String) (plan : CallPlan)
    (r : BackendResult) : DivergenceRecord :=
  { category, file, version := r.version, functionName := some plan.functionName,
    encodedCall := plan.callText? r.compile.selectors, callParameters := some plan.valueTexts }

def report (file : String) (f : Finding) : DivergenceRecord :=
  match f.cause with
  | .rejected =>
    { category := .compileMismatch, file, version := f.result.version,
      error := some f.result.compile.error }
  | .notRun plan =>
    { callReport .missingExecution file plan f.result with
      runResult := some RunOutcome.noOp.fields }
  | .broken plan error => { callReport .executionError file plan f.result with error := some error }
  | .differs plan run parts =>
    { callReport .outputMismatch file plan f.result with
      runResult := some run.fields, kinds := some (parts.map Part.name) }

def plan? (f : Finding) : Option CallPlan :=
  match f.cause with
  | .rejected => none
  | .notRun plan | .broken plan _ | .differs plan _ _ => some plan

theorem record_of_fits (file : String) {f : Finding}
    (h : ∀ p, f.plan? = some p → p.Fits f.result.compile.selectors) :
    f.record file = .ok (f.report file) := by
  obtain ⟨i, r, cause⟩ := f
  cases cause with
  | rejected => rfl
  | notRun plan =>
    have hc := CallPlan.callData_of_fits (h plan rfl)
    simp only [record, Classifier.callRecord, hc]; rfl
  | broken plan error =>
    have hc := CallPlan.callData_of_fits (h plan rfl)
    simp only [record, Classifier.callRecord, hc]; rfl
  | differs plan run parts =>
    have hc := CallPlan.callData_of_fits (h plan rfl)
    simp only [record, Classifier.callRecord, hc]; rfl

end Finding

/-! ## Where findings come from -/

section
variable {results : List BackendResult}

theorem rejection?_spec {p : Placed} {f : Finding} (h : Finding.rejection? p = some f) :
    f = ⟨p.2, p.1, .rejected⟩ ∧ p.1.compile.success = false := by
  unfold Finding.rejection? at h
  split at h
  · cases h
  · rename_i hs
    rw [Option.some.injEq] at h
    exact ⟨h.symm, by simpa using hs⟩

theorem unrun?_spec {plan : CallPlan} {p : Placed} {f : Finding}
    (h : Finding.unrun? plan p = some f) :
    (f = ⟨p.2, p.1, .notRun plan⟩ ∧ p.1.missingExecution = true) ∨
      ∃ e, f = ⟨p.2, p.1, .broken plan e⟩ ∧ p.1.executionError = some e := by
  unfold Finding.unrun? at h
  split at h
  · rename_i hm
    rw [Option.some.injEq] at h
    exact Or.inl ⟨h.symm, hm⟩
  · obtain ⟨e, he, rfl⟩ := Option.map_eq_some_iff.mp h
    exact Or.inr ⟨e, rfl, he⟩

theorem difference?_spec {plan : CallPlan} {base : Nat × RunOutcome} {p : Placed} {f : Finding}
    (h : Finding.difference? plan base p = some f) :
    p.2 ≠ base.1 ∧ ∃ run, p.1.run = some run ∧ run.divergencesFrom base.2 ≠ [] ∧
      f = ⟨p.2, p.1, .differs plan run (run.divergencesFrom base.2)⟩ := by
  unfold Finding.difference? at h
  split at h
  · cases h
  · rename_i hi
    obtain ⟨run, hrun, h⟩ := Option.bind_eq_some_iff.mp h
    simp only [← RunOutcome.divergencesFrom_eq] at h
    split at h
    · cases h
    · rename_i he
      rw [Option.some.injEq] at h
      exact ⟨hi, run, hrun, by simpa using he, h.symm⟩

inductive Finding.Holds (results : List BackendResult) (plan : Option CallPlan) : Finding → Prop
  | rejected {i : Nat} {r : BackendResult} (h : r.compile.success = false) :
    Holds results plan ⟨i, r, .rejected⟩
  | notRun {i : Nat} {r : BackendResult} {p : CallPlan} (hp : plan = some p)
    (h : r.missingExecution = true) : Holds results plan ⟨i, r, .notRun p⟩
  | broken {i : Nat} {r : BackendResult} {p : CallPlan} {e : String} (hp : plan = some p)
    (h : r.executionError = some e) : Holds results plan ⟨i, r, .broken p e⟩
  | differs {i : Nat} {r : BackendResult} {p : CallPlan} {run : RunOutcome} {parts : List Part}
    {base : Nat × RunOutcome} (hp : plan = some p) (hb : base? results = some base)
    (hi : i ≠ base.1) (h : r.run = some run) (hparts : parts = run.divergencesFrom base.2)
    (hne : parts ≠ []) : Holds results plan ⟨i, r, .differs p run parts⟩

theorem mem_zipIdx_filterMap {g : Placed → Option Finding} {f : Finding}
    (h : f ∈ results.zipIdx.filterMap g) : ∃ r i, results[i]? = some r ∧ g (r, i) = some f := by
  obtain ⟨⟨r, i⟩, hm, hg⟩ := List.mem_filterMap.mp h
  exact ⟨r, i, List.mk_mem_zipIdx_iff_getElem?.mp hm, hg⟩

theorem holds_of_mem_ofCalls {plan : CallPlan} {f : Finding}
    (h : f ∈ Finding.ofCalls results plan) :
    results[f.place]? = some f.result ∧ f.Holds results (some plan) := by
  rw [Finding.ofCalls, List.mem_append] at h
  rcases h with h | h
  · obtain ⟨r, i, hr, hg⟩ := mem_zipIdx_filterMap h
    rcases unrun?_spec hg with ⟨rfl, hm⟩ | ⟨e, rfl, he⟩
    · exact ⟨hr, .notRun rfl hm⟩
    · exact ⟨hr, .broken rfl he⟩
  · cases hb : base? results with
    | none => simp [hb] at h
    | some base =>
      simp only [hb] at h
      obtain ⟨r, i, hr, hg⟩ := mem_zipIdx_filterMap h
      obtain ⟨hi, run, hrun, hne, rfl⟩ := difference?_spec hg
      exact ⟨hr, .differs rfl hb hi hrun rfl hne⟩

theorem holds_of_mem {plan : Option CallPlan} {f : Finding} (h : f ∈ findings results plan) :
    results[f.place]? = some f.result ∧ f.Holds results plan := by
  unfold findings at h
  split at h
  · rw [List.mem_append] at h
    rcases h with h | h
    · obtain ⟨r, i, hr, hg⟩ := mem_zipIdx_filterMap h
      obtain ⟨rfl, hs⟩ := rejection?_spec hg
      exact ⟨hr, .rejected hs⟩
    · split at h
      · split at h
        · exact holds_of_mem_ofCalls h
        · cases h
      · cases h
  · cases h

/-! ## No backend is found twice -/

theorem filterMap_places_nodup {g : Placed → Option Finding}
    (hg : ∀ p f, g p = some f → f.place = p.2) :
    ((results.zipIdx.filterMap g).map Finding.place).Nodup := by
  have hsub : ∀ ps : List Placed,
      ((ps.filterMap g).map Finding.place).Sublist (ps.map Prod.snd) := by
    intro ps
    induction ps with
    | nil => exact List.Sublist.slnil
    | cons p ps ih =>
      rw [List.filterMap_cons]
      cases h : g p with
      | none => exact ih.cons _
      | some f => rw [List.map_cons, List.map_cons, hg p f h]; exact ih.cons_cons _
  refine (hsub _).nodup ?_
  rw [List.zipIdx_map_snd]
  exact List.nodup_range'

theorem rejection?_place (p : Placed) (f : Finding) (h : Finding.rejection? p = some f) :
    f.place = p.2 := by rw [(rejection?_spec h).1]

theorem unrun?_place (plan : CallPlan) (p : Placed) (f : Finding)
    (h : Finding.unrun? plan p = some f) : f.place = p.2 := by
  rcases unrun?_spec h with ⟨rfl, _⟩ | ⟨_, rfl, _⟩ <;> rfl

theorem difference?_place (plan : CallPlan) (base : Nat × RunOutcome) (p : Placed) (f : Finding)
    (h : Finding.difference? plan base p = some f) : f.place = p.2 := by
  obtain ⟨_, _, _, _, rfl⟩ := difference?_spec h; rfl

theorem places_disjoint {g g' : Placed → Option Finding}
    (hg : ∀ p f, g p = some f → f.place = p.2) (hg' : ∀ p f, g' p = some f → f.place = p.2)
    (h : ∀ r ∈ results, ∀ i f f', g (r, i) = some f → g' (r, i) = some f' → False) :
    ∀ a ∈ (results.zipIdx.filterMap g).map Finding.place,
      ∀ b ∈ (results.zipIdx.filterMap g').map Finding.place, a ≠ b := by
  rintro a ha b hb rfl
  obtain ⟨f, hf, rfl⟩ := List.mem_map.mp ha
  obtain ⟨f', hf', he⟩ := List.mem_map.mp hb
  obtain ⟨r, i, hr, hgr⟩ := mem_zipIdx_filterMap hf
  obtain ⟨r', i', hr', hgr'⟩ := mem_zipIdx_filterMap hf'
  rw [hg _ _ hgr, hg' _ _ hgr'] at he
  dsimp only at he
  subst he
  rw [hr] at hr'
  cases hr'
  exact h r (List.mem_of_getElem? hr) _ f f' hgr hgr'

theorem unrun?_ne_rejection? {r : BackendResult} (hr : r.Settled) {plan : CallPlan} {i : Nat}
    {f f' : Finding} (h : Finding.rejection? (r, i) = some f)
    (h' : Finding.unrun? plan (r, i) = some f') : False := by
  have hs := (rejection?_spec h).2
  rcases unrun?_spec h' with ⟨_, hm⟩ | ⟨e, _, he⟩
  · cases hr <;> simp_all
  · cases hr <;> simp_all

theorem difference?_ne_rejection? {r : BackendResult} (hr : r.Settled) {plan : CallPlan}
    {base : Nat × RunOutcome} {i : Nat} {f f' : Finding}
    (h : Finding.rejection? (r, i) = some f)
    (h' : Finding.difference? plan base (r, i) = some f') : False := by
  have hs := (rejection?_spec h).2
  obtain ⟨_, run, hrun, _⟩ := difference?_spec h'
  cases hr <;> simp_all

theorem difference?_ne_unrun? {r : BackendResult} (hr : r.Settled) {plan : CallPlan}
    {base : Nat × RunOutcome} {i : Nat} {f f' : Finding}
    (h : Finding.unrun? plan (r, i) = some f)
    (h' : Finding.difference? plan base (r, i) = some f') : False := by
  obtain ⟨_, run, hrun, _⟩ := difference?_spec h'
  rcases unrun?_spec h with ⟨_, hm⟩ | ⟨e, _, he⟩
  · cases hr <;> simp_all
  · cases hr <;> simp_all

theorem ofCalls_nodup (hs : ∀ r ∈ results, r.Settled) (plan : CallPlan) :
    ((Finding.ofCalls results plan).map Finding.place).Nodup := by
  rw [Finding.ofCalls, List.map_append, List.nodup_append]
  refine ⟨filterMap_places_nodup (unrun?_place plan), ?_⟩
  cases base? results with
  | none => simp
  | some base =>
    exact ⟨filterMap_places_nodup (difference?_place plan base),
      places_disjoint (unrun?_place plan) (difference?_place plan base)
        fun r hr _ _ _ h h' => difference?_ne_unrun? (hs r hr) h h'⟩

theorem rejections_disjoint (hs : ∀ r ∈ results, r.Settled) (plan : CallPlan) :
    ∀ a ∈ (results.zipIdx.filterMap Finding.rejection?).map Finding.place,
      ∀ b ∈ (Finding.ofCalls results plan).map Finding.place, a ≠ b := by
  intro a ha b hb
  rw [Finding.ofCalls, List.map_append, List.mem_append] at hb
  rcases hb with hb | hb
  · exact places_disjoint rejection?_place (unrun?_place plan)
      (fun r hr _ _ _ h h' => unrun?_ne_rejection? (hs r hr) h h') a ha b hb
  · cases hbase : base? results with
    | none => simp [hbase] at hb
    | some base =>
      simp only [hbase] at hb
      exact places_disjoint rejection?_place (difference?_place plan base)
        (fun r hr _ _ _ h h' => difference?_ne_rejection? (hs r hr) h h') a ha b hb

/-- No backend is found twice. -/
theorem findings_nodup (hs : ∀ r ∈ results, r.Settled) (plan : Option CallPlan) :
    ((findings results plan).map Finding.place).Nodup := by
  have hrej : ((results.zipIdx.filterMap Finding.rejection?).map Finding.place).Nodup :=
    filterMap_places_nodup rejection?_place
  unfold findings
  split
  · rw [List.map_append, List.nodup_append]
    cases plan with
    | none => exact ⟨hrej, by simp⟩
    | some plan =>
      cases results.any (·.run.isSome) with
      | false => exact ⟨hrej, by simp⟩
      | true => exact ⟨hrej, ofCalls_nodup hs plan, rejections_disjoint hs plan⟩
  · exact List.nodup_nil

theorem base_not_found (hs : ∀ r ∈ results, r.Settled) (plan : Option CallPlan)
    {base : Nat × RunOutcome} (hb : base? results = some base) :
    base.1 ∉ (findings results plan).map Finding.place := by
  intro hm
  obtain ⟨f, hf, he⟩ := List.mem_map.mp hm
  obtain ⟨r, hr, hbr, hrun, -⟩ := base?_mem hb
  obtain ⟨hfr, hholds⟩ := holds_of_mem hf
  rw [he, hbr] at hfr
  cases hfr
  have hsettled := hs _ hr
  cases hholds with
  | rejected h => cases hsettled <;> simp_all
  | notRun _ h => cases hsettled <;> simp_all
  | broken _ h => cases hsettled <;> simp_all
  | differs _ hb' hi => rw [hb] at hb'; cases hb'; exact hi he

theorem mapM_report (file : String) {fs : List Finding}
    (h : ∀ f ∈ fs, f.record file = .ok (f.report file)) :
    fs.mapM (Finding.record file) = .ok (fs.map (Finding.report file)) := by
  induction fs with
  | nil => rfl
  | cons f fs ih =>
    rw [List.forall_mem_cons] at h
    rw [List.mapM_cons, h.1, ih h.2]; rfl

theorem record_of_mem (file : String) {plan : Option CallPlan}
    (hfit : ∀ p, plan = some p → ∀ r ∈ results, p.Fits r.compile.selectors) {f : Finding}
    (hf : f ∈ findings results plan) : f.record file = .ok (f.report file) := by
  obtain ⟨hr, hholds⟩ := holds_of_mem hf
  apply Finding.record_of_fits
  intro p hp
  have hplan : plan = some p := by
    cases hholds with
    | rejected h => cases hp
    | notRun hp' h | broken hp' h => rw [hp']; exact hp
    | differs hp' hb hi h hparts hne => rw [hp']; exact hp
  exact hfit p hplan _ (List.mem_of_getElem? hr)

theorem unrun_ok {plan : CallPlan} (hfit : ∀ r ∈ results, plan.Fits r.compile.selectors)
    (file : String) : ∃ unrun, results.mapM (Classifier.unrunRecord file plan) = .ok unrun ∧
      unrun.filterMap id =
        (results.zipIdx.filterMap (Finding.unrun? plan)).map (Finding.report file) := by
  have hreport : (results.zipIdx.filterMap (Finding.unrun? plan)).mapM (Finding.record file) =
      .ok ((results.zipIdx.filterMap (Finding.unrun? plan)).map (Finding.report file)) := by
    refine mapM_report file fun f hf => ?_
    obtain ⟨r, i, hr, hu⟩ := mem_zipIdx_filterMap hf
    apply Finding.record_of_fits
    intro p hp
    rcases unrun?_spec hu with ⟨rfl, -⟩ | ⟨e, rfl, -⟩ <;>
      (cases hp; exact hfit r (List.mem_of_getElem? hr))
  have hunrun := mapM_unrun file plan results
  rw [hreport] at hunrun
  cases hm : results.mapM (Classifier.unrunRecord file plan) with
  | error cause => rw [hm] at hunrun; cases hunrun
  | ok unrun => rw [hm] at hunrun; exact ⟨unrun, rfl, Except.ok.inj hunrun⟩

theorem runRecords_ok {plan : CallPlan} (hfit : ∀ r ∈ results, plan.Fits r.compile.selectors)
    (file : String) : ∃ records, Classifier.runRecords results file plan = .ok records := by
  have hd := diverging_eq results
  unfold Classifier.runRecords
  split
  · exact ⟨[], rfl⟩
  · split
    · exact ⟨[], rfl⟩
    · rename_i b others hdiv
      rw [hdiv] at hd
      obtain ⟨base, -, hothers⟩ := Option.map_eq_some_iff.mp hd.symm
      dsimp only at hothers
      rw [← hothers, mapM_differences]
      refine ⟨_, mapM_report file fun f hf => ?_⟩
      obtain ⟨r, i, hr, hf⟩ := mem_zipIdx_filterMap hf
      apply Finding.record_of_fits
      intro p hp
      obtain ⟨_, run, _, _, rfl⟩ := difference?_spec hf
      cases hp
      exact hfit r (List.mem_of_getElem? hr)

/-- Selectors that fit the plan always give records, and once a backend ran there is one for
every error of an execution. -/
theorem classify_errors (hs : ∀ r ∈ results, r.Settled) {plan : CallPlan}
    (hfit : ∀ r ∈ results, plan.Fits r.compile.selectors) (file : String) :
    ∃ records, classify results file (some plan) = .ok records ∧
      ∀ r ∈ results, ∀ e, r.executionError = some e → (∃ r' ∈ results, r'.run.isSome) →
        ∃ record ∈ records, record.category = .executionError ∧ record.version = r.version ∧
          record.error = some e := by
  obtain ⟨unrun, hunrun, hreports⟩ := unrun_ok hfit file
  obtain ⟨diverged, hdiverged⟩ := runRecords_ok hfit file
  unfold classify
  cases hany : results.any (·.compile.success) with
  | false =>
    refine ⟨[], rfl, fun r hr e he _ => ?_⟩
    have hsettled := hs r hr
    have hsuccess : r.compile.success = false := by
      simpa using List.any_eq_false.mp hany r hr
    cases hsettled <;> simp_all
  | true =>
    cases hran : results.any (·.run.isSome) with
    | false =>
      refine ⟨_, rfl, fun r hr e he hother => ?_⟩
      obtain ⟨r', hr', hsome⟩ := hother
      have := List.any_eq_false.mp hran r' hr'
      contradiction
    | true =>
      simp only [Bool.not_true, Bool.false_eq_true, ite_false, hunrun, hdiverged]
      refine ⟨_, rfl, fun r hr e he _ => ?_⟩
      obtain ⟨i, hi⟩ := List.getElem?_of_mem hr
      have hm : r.missingExecution = false := by
        have hsettled := hs r hr
        cases hsettled <;> simp_all
      have hu : Finding.unrun? plan (r, i) = some ⟨i, r, .broken plan e⟩ := by
        simp [Finding.unrun?, hm, he]
      have hmem : Finding.report file ⟨i, r, .broken plan e⟩ ∈ unrun.filterMap id := by
        rw [hreports]
        exact List.mem_map_of_mem (List.mem_filterMap.mpr
          ⟨(r, i), List.mk_mem_zipIdx_iff_getElem?.mpr hi, hu⟩)
      exact ⟨_, List.mem_append_left _ (List.mem_append_right _ hmem), rfl, rfl, rfl⟩

/-- Classification gives exactly the records of the findings, in order: it looks for identical
outcomes without changing an answer, reports no backend twice, and never the base. -/
theorem classify_exact (hs : ∀ r ∈ results, r.Settled) (hp : ∀ r ∈ results, r.Proper)
    (file : String) (plan : Option CallPlan) :
    classify results file plan = (findings results plan).mapM (Finding.record file) ∧
      ((∀ p, plan = some p → ∀ r ∈ results, p.Fits r.compile.selectors) →
        classify results file plan = .ok ((findings results plan).map (Finding.report file))) ∧
      (Classifier.allSame results = true → ∀ f ∈ findings results plan, ∀ p run parts,
        f.cause ≠ .differs p run parts) ∧
      (∀ f ∈ findings results plan, results[f.place]? = some f.result) ∧
      ((findings results plan).map Finding.place).Nodup ∧
      ∀ base, base? results = some base → base.1 ∉ (findings results plan).map Finding.place := by
  have heq := classify_eq_mapM hp file plan
  refine ⟨heq, fun hfit => ?_, fun hsame f hf p run parts hc => ?_, fun f hf => (holds_of_mem hf).1,
    findings_nodup hs plan, fun base hb => base_not_found hs plan hb⟩
  · rw [heq]
    exact mapM_report file fun f hf => record_of_mem file hfit hf
  · obtain ⟨hr, hholds⟩ := holds_of_mem hf
    cases hholds with
    | differs _ hb _ hrun hparts hne =>
      obtain ⟨b, hbm, -, hbr, -⟩ := base?_mem hb
      exact hne (hparts.trans (Classifier.divergencesFrom_of_allSame hp hsame
        (List.mem_of_getElem? hr) hbm hrun hbr))
    | _ => cases hc

end

def sampleCall : CallPlan := { functionName := "f", types := [], values := [], encoded := "" }

def sampleCompile (version : String) (success : Bool) : CompileOutcome :=
  { backend := ⟨version⟩, success, selectors := ⟨[(.text "f()", .text "26121ff0")]⟩ }

def sampleRun (status slot : String) : RunOutcome :=
  { status, storage := .object [("0x0", .text slot)] }

/-- A backend in each state, and two runs of another status: one differs in its slot, one does not. -/
def sampleResults : List BackendResult := [
  { compile := sampleCompile "a" false },
  { compile := sampleCompile "b" true, run := some (sampleRun "success" "0x5") },
  { compile := sampleCompile "c" true, missingExecution := true },
  { compile := sampleCompile "d" true, executionError := some "timeout" },
  { compile := sampleCompile "e" true },
  { compile := sampleCompile "f" true, run := some (sampleRun "revert" "0x7") },
  { compile := sampleCompile "g" true, run := some (sampleRun "revert" "0x5") }]

theorem sampleResults_settled : ∀ r ∈ sampleResults, r.Settled := by
  simp only [sampleResults, List.forall_mem_cons]
  exact ⟨.rejected _ rfl, .ran _ _ rfl, .notRun _ rfl, .broken _ _ rfl, .compiled _ rfl,
    .ran _ _ rfl, .ran _ _ rfl, by simp⟩

theorem sampleRun_proper (status slot : String) : (sampleRun status slot).Proper := by
  simp [RunOutcome.Proper, sampleRun, Json.Proper, Json.ProperFields]

theorem sampleResults_proper : ∀ r ∈ sampleResults, r.Proper := by
  simp [sampleResults, BackendResult.Proper, sampleRun_proper]

theorem sampleResults_fit : ∀ r ∈ sampleResults, sampleCall.Fits r.compile.selectors := by
  have hfit : ∀ v ok, sampleCall.Fits (sampleCompile v ok).selectors := by
    intro v ok w hw
    have : w = .text "26121ff0" := Option.some.inj (hw.symm.trans rfl)
    exact Or.inr ⟨_, this⟩
  simp [sampleResults, hfit]

theorem classify_exact_in_each_state :
    classify sampleResults "v.sol" (some sampleCall) =
        .ok ((findings sampleResults (some sampleCall)).map (Finding.report "v.sol")) ∧
      (findings sampleResults (some sampleCall)).map (fun f => (f.place, (f.report "v.sol").kinds)) =
        [(0, none), (2, none), (3, none), (5, some ["storage"])] := by
  refine ⟨(classify_exact sampleResults_settled sampleResults_proper "v.sol" (some sampleCall)).2.1
    ?_, by decide⟩
  intro p hp
  cases hp
  exact sampleResults_fit

/-! ## Differences in status alone -/

section
variable {results : List BackendResult}

theorem base?_of_succeeded (hs : ∃ r ∈ results, r.succeeded = true) :
    ∃ base, base? results = some base := by
  obtain ⟨r, hr, hok⟩ := hs
  obtain ⟨i, hi⟩ := List.getElem?_of_mem hr
  rw [← Option.isSome_iff_exists, base?, List.findSome?_isSome_iff]
  refine ⟨(r, i), List.mk_mem_zipIdx_iff_getElem?.mpr hi, ?_⟩
  unfold BackendResult.succeeded at hok
  cases hrun : r.run with
  | none => simp [hrun] at hok
  | some run => simp_all [succeeded?]

theorem difference_mem (plan : CallPlan) {base : Nat × RunOutcome} (hb : base? results = some base)
    (hok : ∀ r ∈ results, r.run.isSome → r.compile.success = true) {r : BackendResult}
    (hr : r ∈ results) {run : RunOutcome} (hrun : r.run = some run)
    (hne : run.divergencesFrom base.2 ≠ []) (hbp : base.2.Proper) :
    ∃ i, (⟨i, r, .differs plan run (run.divergencesFrom base.2)⟩ : Finding) ∈
      findings results (some plan) := by
  obtain ⟨i, hi⟩ := List.getElem?_of_mem hr
  refine ⟨i, ?_⟩
  have hany : results.any (·.compile.success) = true :=
    List.any_eq_true.mpr ⟨r, hr, hok r hr (by simp [hrun])⟩
  have hran : results.any (·.run.isSome) = true := List.any_eq_true.mpr ⟨r, hr, by simp [hrun]⟩
  have hib : i ≠ base.1 := by
    intro he
    obtain ⟨b, -, hbi, hbr, -⟩ := base?_mem hb
    rw [← he, hi] at hbi
    cases hbi
    rw [hrun] at hbr
    cases hbr
    exact hne ((RunOutcome.same_iff _ _).mp (RunOutcome.same_refl hbp)).2
  have hd : Finding.difference? plan base (r, i) =
      some ⟨i, r, .differs plan run (run.divergencesFrom base.2)⟩ := by
    simp [Finding.difference?, hib, hrun, ← RunOutcome.divergencesFrom_eq, hne]
  simp only [findings, hany, hran, ite_true, Finding.ofCalls, hb]
  refine List.mem_append_right _ (List.mem_append_right _ (List.mem_filterMap.mpr ?_))
  exact ⟨(r, i), List.mk_mem_zipIdx_iff_getElem?.mpr hi, hd⟩

theorem report_category_outputMismatch {file : String} {f : Finding}
    (h : (f.report file).category = .outputMismatch) :
    ∃ p run parts, f.cause = .differs p run parts := by
  obtain ⟨i, r, cause⟩ := f
  cases cause with
  | differs p run parts => exact ⟨p, run, parts, rfl⟩
  | _ => cases h

/-- A run is reported as a mismatch exactly if it differs from the first run that succeeded in
output, storage or logs; a difference in status alone is not reported. -/
theorem outputMismatch_iff_part_differs (hok : ∀ r ∈ results, r.run.isSome → r.compile.success = true)
    (hp : ∀ r ∈ results, r.Proper) (file : String) {plan : CallPlan}
    (hfit : ∀ r ∈ results, plan.Fits r.compile.selectors)
    (hs : ∃ r ∈ results, r.succeeded = true) :
    ∃ records base, classify results file (some plan) = .ok records ∧ base? results = some base ∧
      ((∃ record ∈ records, record.category = .outputMismatch) ↔
        ∃ r ∈ results, ∃ run, r.run = some run ∧ ∃ part, Part.differs run base.2 part = true) ∧
      ∀ r ∈ results, ∀ run, r.run = some run → (∃ part, Part.differs run base.2 part = true) →
        ∃ record ∈ records, record.category = .outputMismatch ∧ record.version = r.version ∧
          record.kinds = some ((run.divergencesFrom base.2).map Part.name) := by
  obtain ⟨base, hb⟩ := base?_of_succeeded hs
  obtain ⟨b, hbm, -, hbr, -⟩ := base?_mem hb
  have hrecords : (findings results (some plan)).mapM (Finding.record file) =
      .ok ((findings results (some plan)).map (Finding.report file)) :=
    mapM_report file fun f hf => record_of_mem file (fun p h => by cases h; exact hfit) hf
  have hne : ∀ run : RunOutcome,
      (∃ part, Part.differs run base.2 part = true) ↔ run.divergencesFrom base.2 ≠ [] := by
    intro run
    simp only [← RunOutcome.mem_divergencesFrom]
    exact ⟨fun ⟨part, h⟩ => List.ne_nil_of_mem h, List.exists_mem_of_ne_nil _⟩
  have hreport : ∀ r ∈ results, ∀ run, r.run = some run → run.divergencesFrom base.2 ≠ [] →
      ∃ record ∈ (findings results (some plan)).map (Finding.report file),
        record.category = .outputMismatch ∧ record.version = r.version ∧
          record.kinds = some ((run.divergencesFrom base.2).map Part.name) := by
    intro r hr run hrun hd
    obtain ⟨i, hi⟩ := difference_mem plan hb hok hr hrun hd (hp b hbm _ hbr)
    exact ⟨_, List.mem_map_of_mem hi, rfl, rfl, rfl⟩
  refine ⟨_, base, (classify_eq_mapM hp file (some plan)).trans hrecords, hb, ⟨?_, ?_⟩, ?_⟩
  · rintro ⟨record, hrec, hcat⟩
    obtain ⟨f, hf, rfl⟩ := List.mem_map.mp hrec
    obtain ⟨p, run, parts, hc⟩ := report_category_outputMismatch hcat
    obtain ⟨hr, hholds⟩ := holds_of_mem hf
    cases hholds with
    | differs _ hb' _ hrun hparts hne' =>
      rw [hb] at hb'
      cases hb'
      exact ⟨_, List.mem_of_getElem? hr, _, hrun, (hne _).mpr (hparts ▸ hne')⟩
    | _ => cases hc
  · rintro ⟨r, hr, run, hrun, hd⟩
    obtain ⟨record, hrec, hcat, -⟩ := hreport r hr run hrun ((hne run).mp hd)
    exact ⟨record, hrec, hcat⟩
  · exact fun r hr run hrun hd => hreport r hr run hrun ((hne run).mp hd)

end

theorem outputMismatch_iff_part_differs_in_each_state :
    ∃ records, classify sampleResults "v.sol" (some sampleCall) = .ok records ∧
      (∃ record ∈ records, record.category = .outputMismatch) ∧
      ∃ record ∈ records, record.version = "f" ∧ record.kinds = some ["storage"] := by
  obtain ⟨records, base, hrecords, hb, hiff, hreport⟩ := outputMismatch_iff_part_differs
    (by decide) sampleResults_proper "v.sol" sampleResults_fit
    ⟨_, List.mem_cons_of_mem _ List.mem_cons_self, rfl⟩
  have hbase : base = (1, sampleRun "success" "0x5") := Option.some.inj (hb.symm.trans rfl)
  subst hbase
  have hf := List.getElem_mem (l := sampleResults) (n := 5) (by decide)
  obtain ⟨record, hrec, -, hv, hk⟩ := hreport _ hf _ rfl ⟨.storage, rfl⟩
  exact ⟨records, hrecords, hiff.mpr ⟨_, hf, _, rfl, .storage, rfl⟩, record, hrec, hv, hk⟩

/-- A reverted run that leaves nothing, beside one that succeeded and leaves nothing: the status
differs, and nothing is reported. -/
theorem status_difference_not_reported :
    ¬ ∀ (results : List BackendResult) (file : String) (plan : CallPlan)
      (records : List DivergenceRecord), (∀ r ∈ results, r.Settled) →
      classify results file (some plan) = .ok records → (∃ r ∈ results, r.succeeded = true) →
      (∃ r ∈ results, ∃ run, r.run = some run ∧ run.succeeded = false) →
      ∃ record ∈ records, record.category = .outputMismatch := by
  intro h
  let results : List BackendResult := [
    { compile := sampleCompile "a" true, run := some { status := "success" } },
    { compile := sampleCompile "b" true, run := some { status := "revert" } }]
  have hs : ∀ r ∈ results, r.Settled := by
    simp only [results, List.forall_mem_cons]
    exact ⟨.ran _ _ rfl, .ran _ _ rfl, by simp⟩
  obtain ⟨record, hr, -⟩ := h results "v.sol" sampleCall [] hs rfl ⟨_, List.mem_cons_self, rfl⟩
    ⟨_, List.mem_cons_of_mem _ List.mem_cons_self, _, rfl, rfl⟩
  cases hr

end BackendFuzz
