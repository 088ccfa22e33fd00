import BackendFuzz.Proofs.Divergence.Findings
import BackendFuzz.Proofs.Session.Run

/-!
# Where records come from

Each record of a variant comes from the result of one backend, and says of the
call what that backend's table of selectors makes of the plan.
-/

namespace BackendFuzz

/-- The result that a record comes from, and why it is one. -/
inductive Origin (results : List BackendResult) (file : String) (plan : Option CallPlan) :
    DivergenceRecord → Prop
  | rejected {r : BackendResult} (hr : r ∈ results) (hs : r.compile.success = false) :
    Origin results file plan (Classifier.compileRecord file r)
  | notRun {r : BackendResult} {p : CallPlan} {record : DivergenceRecord} (hr : r ∈ results)
    (hp : plan = some p) (hm : r.missingExecution = true)
    (hc : Classifier.callRecord .missingExecution file p r (some .noOp) none none = .ok record) :
    Origin results file plan record
  | broken {r : BackendResult} {p : CallPlan} {e : String} {record : DivergenceRecord}
    (hr : r ∈ results) (hp : plan = some p) (he : r.executionError = some e)
    (hc : Classifier.callRecord .executionError file p r none (some e) none = .ok record) :
    Origin results file plan record
  | diverged {r : BackendResult} {p : CallPlan} {run : RunOutcome} {parts : List Part}
    {record : DivergenceRecord} (hr : r ∈ results) (hp : plan = some p) (hrun : r.run = some run)
    (hc : Classifier.callRecord .outputMismatch file p r (some run) none (some parts) = .ok record) :
    Origin results file plan record

theorem mem_of_mapM_ok {α β ε : Type} {f : α → Except ε β} {l : List α} {l' : List β}
    (h : l.mapM f = .ok l') {y : β} (hy : y ∈ l') : ∃ x ∈ l, f x = .ok y := by
  rw [mapM_ok_iff] at h
  induction h with
  | nil => cases hy
  | cons hab hrest ih =>
    rcases List.mem_cons.mp hy with rfl | hy
    · exact ⟨_, List.mem_cons_self, hab⟩
    · obtain ⟨x, hx, hfx⟩ := ih hy
      exact ⟨x, List.mem_cons_of_mem _ hx, hfx⟩

section
variable {results : List BackendResult} {file : String} {plan : CallPlan}
  {records : List DivergenceRecord} {record : DivergenceRecord}

theorem origin_of_unrun {unrun : List (Option DivergenceRecord)}
    (h : results.mapM (Classifier.unrunRecord file plan) = .ok unrun)
    (hm : record ∈ unrun.filterMap id) : Origin results file (some plan) record := by
  obtain ⟨found, hfound, rfl⟩ := List.mem_filterMap.mp hm
  obtain ⟨r, hr, hrecord⟩ := mem_of_mapM_ok h hfound
  unfold Classifier.unrunRecord at hrecord
  split at hrecord
  · rename_i hmissing
    cases hc : Classifier.callRecord .missingExecution file plan r (some .noOp) none none with
    | error cause => rw [hc, error_bind] at hrecord; cases hrecord
    | ok made =>
      rw [hc, ok_bind] at hrecord
      cases hrecord
      exact .notRun hr rfl hmissing hc
  · split at hrecord
    · rename_i e he
      cases hc : Classifier.callRecord .executionError file plan r none (some e) none with
      | error cause => rw [hc, error_bind] at hrecord; cases hrecord
      | ok made =>
        rw [hc, ok_bind] at hrecord
        cases hrecord
        exact .broken hr rfl he hc
    · cases hrecord

theorem mem_of_diverging {base r : BackendResult} {run : RunOutcome} {parts : List Part}
    {others : List (BackendResult × RunOutcome × List Part)}
    (h : Classifier.diverging results = some (base, others)) (hm : (r, run, parts) ∈ others) :
    r ∈ results ∧ r.run = some run := by
  have hothers := diverging_eq results
  rw [h] at hothers
  obtain ⟨base', -, hb⟩ := Option.map_eq_some_iff.mp hothers.symm
  dsimp only at hb
  rw [← hb] at hm
  obtain ⟨⟨r', i⟩, hmem, hdiv⟩ := List.mem_filterMap.mp hm
  unfold divergent? at hdiv
  split at hdiv
  · rename_i run' hrun
    split at hdiv
    · cases hdiv
    · cases hdiv
      exact ⟨(List.mem_zipIdx' hmem).2 ▸ List.getElem_mem _, hrun⟩
  · cases hdiv

theorem origin_of_runRecords (h : Classifier.runRecords results file plan = .ok records)
    (hm : record ∈ records) : Origin results file (some plan) record := by
  unfold Classifier.runRecords at h
  split at h
  · cases h; cases hm
  · split at h
    · cases h; cases hm
    · rename_i base others hd
      obtain ⟨⟨r, run, parts⟩, hmem, hc⟩ := mem_of_mapM_ok h hm
      obtain ⟨hr, hrun⟩ := mem_of_diverging hd hmem
      exact .diverged hr rfl hrun hc

theorem origin_of_mem {plan : Option CallPlan} (h : classify results file plan = .ok records)
    (hm : record ∈ records) : Origin results file plan record := by
  have hfailed : record ∈ (results.filter (!·.compile.success)).map (Classifier.compileRecord file) →
      Origin results file plan record := by
    intro hmem
    obtain ⟨r, hr, rfl⟩ := List.mem_map.mp hmem
    obtain ⟨hr, hs⟩ := List.mem_filter.mp hr
    exact .rejected hr (by simpa using hs)
  unfold classify at h
  split at h
  · cases h; cases hm
  · cases plan with
    | none => cases h; exact hfailed hm
    | some plan =>
      dsimp only at h
      split at h
      · cases h; exact hfailed hm
      · cases hu : results.mapM (Classifier.unrunRecord file plan) with
        | error cause => rw [hu, error_bind] at h; cases h
        | ok unrun =>
          rw [hu, ok_bind] at h
          cases hd : Classifier.runRecords results file plan with
          | error cause => rw [hd, error_bind] at h; cases h
          | ok diverged =>
            rw [hd, ok_bind] at h
            cases h
            rcases List.mem_append.mp hm with hm | hm
            · rcases List.mem_append.mp hm with hm | hm
              · exact hfailed hm
              · exact origin_of_unrun hu hm
            · exact origin_of_runRecords hd hm

theorem callRecord_inv {category : DivergenceCategory} {r : BackendResult}
    {run : Option RunOutcome} {error : Option String} {kinds : Option (List Part)}
    (h : Classifier.callRecord category file plan r run error kinds = .ok record) :
    ∃ call, plan.callData r.compile.selectors = .ok call ∧ record = {
      category, file, version := r.version, error, functionName := some plan.functionName
      encodedCall := call, callParameters := some plan.valueTexts
      runResult := run.map (·.fields), kinds := kinds.map (·.map Part.name) } := by
  unfold Classifier.callRecord at h
  cases hc : plan.callData r.compile.selectors with
  | error cause => rw [hc, error_bind] at h; cases h
  | ok call =>
    rw [hc, ok_bind] at h
    cases h
    exact ⟨call, rfl, rfl⟩

/-- Every record names the file of its variant. -/
theorem Origin.file_eq {plan : Option CallPlan} (h : Origin results file plan record) :
    record.file = file := by
  cases h with
  | rejected hr hs => rfl
  | notRun hr hp hm hc => obtain ⟨call, -, rfl⟩ := callRecord_inv hc; rfl
  | broken hr hp he hc => obtain ⟨call, -, rfl⟩ := callRecord_inv hc; rfl
  | diverged hr hp hrun hc => obtain ⟨call, -, rfl⟩ := callRecord_inv hc; rfl

end

end BackendFuzz
