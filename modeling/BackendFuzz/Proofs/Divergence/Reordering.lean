import Mathlib.Data.List.Perm.Basic
import BackendFuzz.Proofs.Divergence.Classification
import BackendFuzz.Proofs.Divergence.Origins

/-!
# Backends in another order

Another order of the backends changes the base at most. Bases that agree in all
that is observed of them let the same runs differ in the same parts, so the
records are the same; each group of them follows the order of the backends.
-/

namespace BackendFuzz

/-! ## Bases that agree -/

namespace RunOutcome

theorem divergencesFrom_self {a : RunOutcome} (ha : a.Proper) : a.divergencesFrom a = [] :=
  ((same_iff a a).mp (same_refl ha)).2

theorem divergencesFrom_congr {b b' : RunOutcome} (hb : b.Proper) (hb' : b'.Proper)
    (h : b.divergencesFrom b' = []) (a : RunOutcome) :
    a.divergencesFrom b = a.divergencesFrom b' := by
  obtain ⟨ho, hs, hl⟩ := (divergencesFrom_eq_nil b b').mp h
  have hstorage : a.storage.same b.storage = a.storage.same b'.storage := by
    rw [Bool.eq_iff_iff]
    exact ⟨fun hab => Json.same_trans hab hs,
      fun hab => Json.same_trans hab (Json.same_symm hb hb' hs)⟩
  simp only [divergencesFrom, ho, hl, hstorage]

end RunOutcome

def firstRun? (results : List BackendResult) : Option RunOutcome :=
  (results.filterMap (·.run)).find? (·.succeeded)

theorem base?_run (results : List BackendResult) :
    (base? results).map (·.2) = firstRun? results := by
  unfold base? firstRun?
  generalize 0 = n
  induction results generalizing n with
  | nil => rfl
  | cons r results ih =>
    rw [List.zipIdx_cons, List.findSome?_cons, List.filterMap_cons]
    cases hr : r.run with
    | none => simp [succeeded?, hr, ih]
    | some run => cases hs : run.succeeded <;> simp [succeeded?, hr, hs, ih]

/-- No run succeeded in either order, or all that is observed of the first that did is the same. -/
inductive SameBase (results results' : List BackendResult) : Prop
  | absent (h : firstRun? results = none) (h' : firstRun? results' = none)
  | agree {b b' : RunOutcome} (h : firstRun? results = some b) (h' : firstRun? results' = some b')
    (output : b.output = b'.output) (storage : b.storage.same b'.storage = true)
    (logs : b.logs = b'.logs)

section
variable {results results' : List BackendResult}

theorem firstRun?_proper (hp : ∀ r ∈ results, r.Proper) {b : RunOutcome}
    (h : firstRun? results = some b) : b.Proper := by
  obtain ⟨r, hr, hrun⟩ := List.mem_filterMap.mp (List.mem_of_find?_eq_some h)
  exact hp r hr b hrun

/-! ## Findings without their places -/

namespace Finding

def unplaced (f : Finding) : Finding := { f with place := 0 }

def contrast? (plan : CallPlan) (base : Option RunOutcome) (r : BackendResult) : Option Finding :=
  base.bind fun base => r.run.bind fun run =>
    if run.divergencesFrom base = [] then none
    else some ⟨0, r, .differs plan run (run.divergencesFrom base)⟩

theorem map_unplaced {g : Placed → Option Finding} {h : BackendResult → Option Finding}
    (hg : ∀ r i, results[i]? = some r → (g (r, i)).map unplaced = h r) :
    (results.zipIdx.filterMap g).map unplaced = results.filterMap h := by
  calc (results.zipIdx.filterMap g).map unplaced
      = results.zipIdx.filterMap fun p => (g p).map unplaced := List.map_filterMap
    _ = results.zipIdx.filterMap (h ∘ Prod.fst) := List.filterMap_congr fun p hp =>
        hg p.1 p.2 (List.mk_mem_zipIdx_iff_getElem?.mp hp)
    _ = results.filterMap h := by rw [← List.filterMap_map, List.zipIdx_map_fst]

theorem rejection?_unplaced (r : BackendResult) (i : Nat) :
    (rejection? (r, i)).map unplaced = rejection? (r, 0) := by
  unfold rejection?
  split <;> rfl

theorem unrun?_unplaced (plan : CallPlan) (r : BackendResult) (i : Nat) :
    (unrun? plan (r, i)).map unplaced = unrun? plan (r, 0) := by
  unfold unrun?
  split
  · rfl
  · rw [Option.map_map]; rfl

/-- At the place of the base nothing is found either way: there the run is the base itself. -/
theorem difference?_unplaced (hp : ∀ r ∈ results, r.Proper) (plan : CallPlan)
    {base : Nat × RunOutcome} (hb : base? results = some base) {r : BackendResult} {i : Nat}
    (hi : results[i]? = some r) :
    (difference? plan base (r, i)).map unplaced = contrast? plan (some base.2) r := by
  unfold difference? contrast?
  by_cases he : i = base.1
  · obtain ⟨b, hbm, hbi, hbr, -⟩ := base?_mem hb
    rw [← he, hi] at hbi
    cases hbi
    simp [he, hbr, RunOutcome.divergencesFrom_self (hp r hbm _ hbr)]
  · cases hr : r.run with
    | none => simp [he]
    | some run =>
      by_cases hd : run.divergencesFrom base.2 = []
      all_goals simp [he, hd, ← RunOutcome.divergencesFrom_eq, unplaced]

end Finding

theorem ofCalls_unplaced (hp : ∀ r ∈ results, r.Proper) (plan : CallPlan) :
    (Finding.ofCalls results plan).map Finding.unplaced =
      results.filterMap (fun r => Finding.unrun? plan (r, 0)) ++
        results.filterMap (Finding.contrast? plan (firstRun? results)) := by
  rw [Finding.ofCalls, List.map_append,
    Finding.map_unplaced fun r i _ => Finding.unrun?_unplaced plan r i, ← base?_run]
  congr 1
  cases hb : base? results with
  | none => simp [Finding.contrast?]
  | some base =>
    exact Finding.map_unplaced fun r i hi => Finding.difference?_unplaced hp plan hb hi

theorem findings_unplaced (hp : ∀ r ∈ results, r.Proper) (plan : Option CallPlan) :
    (findings results plan).map Finding.unplaced =
      if results.any (·.compile.success) then
        results.filterMap (fun r => Finding.rejection? (r, 0)) ++
          match plan with
          | some plan =>
            if results.any (·.run.isSome) then
              results.filterMap (fun r => Finding.unrun? plan (r, 0)) ++
                results.filterMap (Finding.contrast? plan (firstRun? results))
            else []
          | none => []
      else [] := by
  unfold findings
  cases results.any (·.compile.success) with
  | false => rfl
  | true =>
    rw [if_pos rfl, if_pos rfl, List.map_append,
      Finding.map_unplaced fun r i _ => Finding.rejection?_unplaced r i]
    cases plan with
    | none => rfl
    | some plan =>
      cases results.any (·.run.isSome) with
      | false => rfl
      | true =>
        dsimp only
        rw [if_pos rfl, if_pos rfl, ofCalls_unplaced hp]

theorem contrast?_congr (hp : ∀ r ∈ results, r.Proper) (hp' : ∀ r ∈ results', r.Proper)
    (hb : SameBase results results') (plan : CallPlan) :
    Finding.contrast? plan (firstRun? results) = Finding.contrast? plan (firstRun? results') := by
  cases hb with
  | absent h h' => rw [h, h']
  | agree h h' output storage logs =>
    have hnil := (RunOutcome.divergencesFrom_eq_nil _ _).mpr ⟨output, storage, logs⟩
    funext r
    simp only [Finding.contrast?, h, h', Option.bind_some,
      RunOutcome.divergencesFrom_congr (firstRun?_proper hp h) (firstRun?_proper hp' h') hnil]

theorem findings_perm (hperm : results.Perm results') (hp : ∀ r ∈ results, r.Proper)
    (hb : SameBase results results') (plan : Option CallPlan) :
    ((findings results plan).map Finding.unplaced).Perm
      ((findings results' plan).map Finding.unplaced) := by
  have hp' : ∀ r ∈ results', r.Proper := fun r hr => hp r (hperm.mem_iff.mpr hr)
  rw [findings_unplaced hp, findings_unplaced hp', ← hperm.any_eq, ← hperm.any_eq]
  cases results.any (·.compile.success) with
  | false => exact .refl _
  | true =>
    refine (hperm.filterMap _).append ?_
    cases plan with
    | none => exact .refl _
    | some plan =>
      cases results.any (·.run.isSome) with
      | false => exact .refl _
      | true =>
        refine (hperm.filterMap _).append ?_
        rw [contrast?_congr hp hp' hb plan]
        exact hperm.filterMap _

/-! ## Records in another order -/

/-- Both answers have the same records, each as often, or both are refused. -/
inductive Rearranged : Except Misuse (List DivergenceRecord) →
    Except Misuse (List DivergenceRecord) → Prop
  | records {l l' : List DivergenceRecord} (h : l.Perm l') : Rearranged (.ok l) (.ok l')
  | refused (cause cause' : Misuse) : Rearranged (.error cause) (.error cause')

theorem mapM_perm {file : String} {fs fs' : List Finding} (h : fs.Perm fs')
    {records : List DivergenceRecord} (hr : fs.mapM (Finding.record file) = .ok records) :
    ∃ records', fs'.mapM (Finding.record file) = .ok records' ∧ records.Perm records' := by
  obtain ⟨records', hr', hperm⟩ := List.perm_comp_forall₂ h.symm (mapM_ok_iff.mp hr)
  exact ⟨records', mapM_ok_iff.mpr hr', hperm.symm⟩

theorem mapM_rearranged (file : String) {fs fs' : List Finding} (h : fs.Perm fs') :
    Rearranged (fs.mapM (Finding.record file)) (fs'.mapM (Finding.record file)) := by
  cases hr : fs.mapM (Finding.record file) with
  | ok records =>
    obtain ⟨records', hr', hperm⟩ := mapM_perm h hr
    exact hr' ▸ .records hperm
  | error cause =>
    cases hr' : fs'.mapM (Finding.record file) with
    | error cause' => exact .refused cause cause'
    | ok records' =>
      obtain ⟨records, hok, -⟩ := mapM_perm h.symm hr'
      rw [hr] at hok
      cases hok

theorem mapM_unplaced (file : String) (fs : List Finding) :
    (fs.map Finding.unplaced).mapM (Finding.record file) = fs.mapM (Finding.record file) :=
  List.mapM_map

/-! ## Groups of records -/

def Follows (results : List BackendResult) (file : String) (plan : Option CallPlan)
    (categories : List DivergenceCategory) (group : List DivergenceRecord) : Prop :=
  List.SublistForall₂ (fun record r => record.category ∈ categories ∧ Origin [r] file plan record)
    group results

/-- The records of backends that did not compile, of those that could not run, and of runs that
differ, each group in the order of the backends. -/
def Grouped (results : List BackendResult) (file : String) (plan : Option CallPlan)
    (records : List DivergenceRecord) : Prop :=
  ∃ rejected unrun diverged, records = rejected ++ unrun ++ diverged ∧
    Follows results file plan [.compileMismatch] rejected ∧
    Follows results file plan [.missingExecution, .executionError] unrun ∧
    Follows results file plan [.outputMismatch] diverged

theorem follows_of_mapM {file : String} {plan : Option CallPlan}
    {categories : List DivergenceCategory} {g : BackendResult → Option Finding}
    (hg : ∀ r f record, g r = some f → f.record file = .ok record →
      record.category ∈ categories ∧ Origin [r] file plan record)
    {group : List DivergenceRecord}
    (h : (results.filterMap g).mapM (Finding.record file) = .ok group) :
    Follows results file plan categories group := by
  induction results generalizing group with
  | nil => cases h; exact .nil
  | cons r results ih =>
    rw [List.filterMap_cons] at h
    cases hf : g r with
    | none => rw [hf] at h; exact .cons_right (ih h)
    | some f =>
      rw [hf, mapM_ok_iff] at h
      obtain _ | ⟨hrecord, hrest⟩ := h
      exact .cons (hg r f _ hf hrecord) (ih (mapM_ok_iff.mpr hrest))

theorem rejection?_origin {file : String} {plan : Option CallPlan} {r : BackendResult} {f : Finding}
    {record : DivergenceRecord} (hf : Finding.rejection? (r, 0) = some f)
    (hr : f.record file = .ok record) :
    record.category ∈ [DivergenceCategory.compileMismatch] ∧ Origin [r] file plan record := by
  obtain ⟨rfl, hs⟩ := rejection?_spec hf
  cases hr
  exact ⟨List.mem_singleton.mpr rfl, .rejected (List.mem_singleton.mpr rfl) hs⟩

theorem unrun?_origin {file : String} {plan : CallPlan} {r : BackendResult} {f : Finding}
    {record : DivergenceRecord} (hf : Finding.unrun? plan (r, 0) = some f)
    (hr : f.record file = .ok record) :
    record.category ∈ [DivergenceCategory.missingExecution, .executionError] ∧
      Origin [r] file (some plan) record := by
  rcases unrun?_spec hf with ⟨rfl, hm⟩ | ⟨e, rfl, he⟩
  · have horigin : Origin [r] file (some plan) record := .notRun List.mem_cons_self rfl hm hr
    obtain ⟨call, -, rfl⟩ := callRecord_inv hr
    exact ⟨List.mem_cons_self, horigin⟩
  · have horigin : Origin [r] file (some plan) record := .broken List.mem_cons_self rfl he hr
    obtain ⟨call, -, rfl⟩ := callRecord_inv hr
    exact ⟨List.mem_cons_of_mem _ List.mem_cons_self, horigin⟩

theorem contrast?_origin {file : String} {plan : CallPlan} {base : Option RunOutcome}
    {r : BackendResult} {f : Finding} {record : DivergenceRecord}
    (hf : Finding.contrast? plan base r = some f) (hr : f.record file = .ok record) :
    record.category ∈ [DivergenceCategory.outputMismatch] ∧ Origin [r] file (some plan) record := by
  obtain ⟨b, -, hf⟩ := Option.bind_eq_some_iff.mp hf
  obtain ⟨run, hrun, hf⟩ := Option.bind_eq_some_iff.mp hf
  split at hf
  · cases hf
  · cases hf
    have horigin : Origin [r] file (some plan) record := .diverged List.mem_cons_self rfl hrun hr
    obtain ⟨call, -, rfl⟩ := callRecord_inv hr
    exact ⟨List.mem_cons_self, horigin⟩

theorem mapM_append_inv {file : String} {fs gs : List Finding} {records : List DivergenceRecord}
    (h : (fs ++ gs).mapM (Finding.record file) = .ok records) :
    ∃ l l', records = l ++ l' ∧ fs.mapM (Finding.record file) = .ok l ∧
      gs.mapM (Finding.record file) = .ok l' := by
  rw [List.mapM_append] at h
  obtain ⟨l, hl, h⟩ := bind_ok_inv h
  obtain ⟨l', hl', h⟩ := bind_ok_inv h
  cases h
  exact ⟨l, l', rfl, hl, hl'⟩

theorem grouped_of_classify (hp : ∀ r ∈ results, r.Proper) {file : String}
    {plan : Option CallPlan} {records : List DivergenceRecord}
    (h : classify results file plan = .ok records) : Grouped results file plan records := by
  rw [classify_eq_mapM hp, ← mapM_unplaced, findings_unplaced hp] at h
  split at h
  · obtain ⟨rejected, others, rfl, hrejected, h⟩ := mapM_append_inv h
    have hfirst := follows_of_mapM (fun r f record => @rejection?_origin file plan r f record) hrejected
    cases plan with
    | none => cases h; exact ⟨rejected, [], [], by simp, hfirst, .nil, .nil⟩
    | some plan =>
      dsimp only at h
      split at h
      · obtain ⟨unrun, diverged, rfl, hunrun, hdiverged⟩ := mapM_append_inv h
        exact ⟨rejected, unrun, diverged, by simp, hfirst,
          follows_of_mapM (fun r f record => unrun?_origin) hunrun,
          follows_of_mapM (fun r f record => contrast?_origin) hdiverged⟩
      · cases h; exact ⟨rejected, [], [], by simp, hfirst, .nil, .nil⟩
  · cases h; exact ⟨[], [], [], rfl, .nil, .nil, .nil⟩

/-- Another order of the backends matters only through the base: if it is observed alike, the
records are the same, each as often, and every group of them follows the order it was made from. -/
theorem classify_reordered (hperm : results.Perm results') (hp : ∀ r ∈ results, r.Proper)
    (hb : SameBase results results') (file : String) (plan : Option CallPlan) :
    Rearranged (classify results file plan) (classify results' file plan) ∧
      (∀ records, classify results file plan = .ok records → Grouped results file plan records) ∧
      (∀ records, classify results' file plan = .ok records →
        Grouped results' file plan records) ∧
      ((∀ p, plan = some p → ∀ r ∈ results, p.Fits r.compile.selectors) →
        ∃ records, classify results file plan = .ok records) := by
  have hp' : ∀ r ∈ results', r.Proper := fun r hr => hp r (hperm.mem_iff.mpr hr)
  refine ⟨?_, fun records => grouped_of_classify hp, fun records => grouped_of_classify hp',
    fun hfit => ?_⟩
  · rw [classify_eq_mapM hp, classify_eq_mapM hp', ← mapM_unplaced file (findings results plan),
      ← mapM_unplaced file (findings results' plan)]
    exact mapM_rearranged file (findings_perm hperm hp hb plan)
  · rw [classify_eq_mapM hp]
    exact ⟨_, mapM_report file fun f hf => record_of_mem file hfit hf⟩

end

def sampleEnds : List BackendResult :=
  sampleResults ++ [{ compile := sampleCompile "h" true, run := some (sampleRun "success" "0x5") }]

theorem sampleEnds_proper : ∀ r ∈ sampleEnds, r.Proper := by
  simp [sampleEnds, sampleResults, BackendResult.Proper, sampleRun_proper]

theorem classify_reordered_from_the_other_end : ∃ records records',
    classify sampleEnds "v.sol" (some sampleCall) = .ok records ∧
      classify sampleEnds.reverse "v.sol" (some sampleCall) = .ok records' ∧
      records.Perm records' ∧ records.map (·.version) = ["a", "c", "d", "f"] ∧
      records'.map (·.version) = ["a", "d", "c", "f"] := by
  have hbase : SameBase sampleEnds sampleEnds.reverse :=
    @SameBase.agree _ _ (sampleRun "success" "0x5") (sampleRun "success" "0x5") rfl rfl rfl
      (Json.same_refl _ (sampleRun_proper _ _)) rfl
  have h := (classify_reordered sampleEnds.reverse_perm.symm sampleEnds_proper hbase "v.sol"
    (some sampleCall)).1
  have hversions : (classify sampleEnds "v.sol" (some sampleCall)).toOption.map
      (·.map (·.version)) = some ["a", "c", "d", "f"] := by decide
  have hversions' : (classify sampleEnds.reverse "v.sol" (some sampleCall)).toOption.map
      (·.map (·.version)) = some ["a", "d", "c", "f"] := by decide
  cases hr : classify sampleEnds "v.sol" (some sampleCall) with
  | error cause => rw [hr] at hversions; cases hversions
  | ok records =>
    cases hr' : classify sampleEnds.reverse "v.sol" (some sampleCall) with
    | error cause => rw [hr'] at hversions'; cases hversions'
    | ok records' =>
      rw [hr, hr'] at h
      cases h with
      | records hperm =>
        rw [hr] at hversions
        rw [hr'] at hversions'
        exact ⟨records, records', rfl, rfl, hperm, Option.some.inj hversions,
          Option.some.inj hversions'⟩

end BackendFuzz
