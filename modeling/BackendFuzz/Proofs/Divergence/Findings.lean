import BackendFuzz.Divergence.Classifier
import BackendFuzz.Proofs.Json.Equality

/-!
# What classification finds

The findings of a variant, listed group by group without looking for identical
outcomes first. Classification makes one record of each finding, so its early
end on identical outcomes changes no answer.
-/

namespace BackendFuzz

/-! ## Parts in which outcomes differ -/

def Part.all : List Part := [output, storage, logs]

def Part.differs (a b : RunOutcome) : Part → Bool
  | output => a.output != b.output
  | storage => !a.storage.same b.storage
  | logs => a.logs != b.logs

namespace RunOutcome

theorem divergencesFrom_eq (a b : RunOutcome) :
    a.divergencesFrom b = Part.all.filter (Part.differs a b) := by
  by_cases ho : a.output = b.output
  all_goals by_cases hl : a.logs = b.logs
  all_goals cases hs : a.storage.same b.storage
  all_goals simp [divergencesFrom, Part.all, Part.differs, List.filter_cons, ho, hl, hs]

theorem mem_divergencesFrom (a b : RunOutcome) (p : Part) :
    p ∈ a.divergencesFrom b ↔ p.differs a b = true := by
  rw [divergencesFrom_eq, List.mem_filter]
  cases p <;> simp [Part.all]

theorem divergencesFrom_eq_nil (a b : RunOutcome) : a.divergencesFrom b = [] ↔
    a.output = b.output ∧ a.storage.same b.storage = true ∧ a.logs = b.logs := by
  rw [divergencesFrom_eq, List.filter_eq_nil_iff]
  simp [Part.all, Part.differs]

theorem same_iff (a b : RunOutcome) :
    a.same b = true ↔ a.status = b.status ∧ a.divergencesFrom b = [] := by
  simp [same, divergencesFrom_eq_nil, and_assoc]

def Proper (o : RunOutcome) : Prop := o.storage.Proper

theorem noOp_proper : noOp.Proper := by
  simp [Proper, noOp, Json.Proper, Json.ProperFields]

theorem same_refl {a : RunOutcome} (ha : a.Proper) : a.same a = true := by
  rw [same_iff, divergencesFrom_eq_nil]
  exact ⟨rfl, rfl, a.storage.same_refl ha, rfl⟩

theorem divergencesFrom_of_same {a b c : RunOutcome} (hb : b.Proper) (hc : c.Proper)
    (hac : a.same c = true) (hbc : b.same c = true) : a.divergencesFrom b = [] := by
  rw [same_iff, divergencesFrom_eq_nil] at hac hbc
  obtain ⟨-, ho, hs, hl⟩ := hac
  obtain ⟨-, ho', hs', hl'⟩ := hbc
  rw [divergencesFrom_eq_nil]
  exact ⟨ho.trans ho'.symm, Json.same_trans hs (Json.same_symm hb hc hs'), hl.trans hl'.symm⟩

end RunOutcome

/-! ## States of a backend -/

namespace BackendResult

inductive Settled : BackendResult → Prop
  | rejected (o : CompileOutcome) (h : o.success = false) : Settled { compile := o }
  | compiled (o : CompileOutcome) (h : o.success = true) : Settled { compile := o }
  | notRun (o : CompileOutcome) (h : o.success = true) :
    Settled { compile := o, missingExecution := true }
  | broken (o : CompileOutcome) (error : String) (h : o.success = true) :
    Settled { compile := o, executionError := some error }
  | ran (o : CompileOutcome) (run : RunOutcome) (h : o.success = true) :
    Settled { compile := o, run := some run }

def Proper (r : BackendResult) : Prop := ∀ run, r.run = some run → run.Proper

theorem compared_of_run {r : BackendResult} {run : RunOutcome} (h : r.run = some run) :
    r.compared = some run := by simp [compared, h]

theorem compared_proper {r : BackendResult} (hr : r.Proper) {o : RunOutcome}
    (h : r.compared = some o) : o.Proper := by
  unfold compared at h
  split at h
  · rename_i run hrun; cases h; exact hr _ hrun
  · split at h
    · cases h; exact RunOutcome.noOp_proper
    · cases h

end BackendResult

namespace Classifier

theorem divergencesFrom_of_allSame {results : List BackendResult} (hp : ∀ r ∈ results, r.Proper)
    (hs : allSame results = true) {r r' : BackendResult} (hr : r ∈ results) (hr' : r' ∈ results)
    {run run' : RunOutcome} (hrun : r.run = some run) (hrun' : r'.run = some run') :
    run.divergencesFrom run' = [] := by
  have hmem : ∀ r ∈ results, ∀ run, r.run = some run → run ∈ results.filterMap (·.compared) :=
    fun r hr run h => List.mem_filterMap.mpr ⟨r, hr, BackendResult.compared_of_run h⟩
  have hproper : ∀ o ∈ results.filterMap (·.compared), o.Proper := by
    intro o ho
    obtain ⟨r, hr, h⟩ := List.mem_filterMap.mp ho
    exact BackendResult.compared_proper (hp r hr) h
  have hm := hmem r hr run hrun
  have hm' := hmem r' hr' run' hrun'
  unfold allSame at hs
  split at hs
  · rename_i he; rw [he] at hm; cases hm
  · rename_i first rest he
    rw [he] at hm hm' hproper
    have hf : first.Proper := hproper first List.mem_cons_self
    have hfirst : ∀ o ∈ first :: rest, o.same first = true :=
      List.forall_mem_cons.mpr ⟨RunOutcome.same_refl hf, List.all_eq_true.mp hs⟩
    exact RunOutcome.divergencesFrom_of_same (hproper run' hm') hf (hfirst run hm) (hfirst run' hm')

end Classifier

/-! ## Findings -/

inductive Cause where
  | rejected
  | notRun (plan : CallPlan)
  | broken (plan : CallPlan) (error : String)
  | differs (plan : CallPlan) (run : RunOutcome) (parts : List Part)

structure Finding where
  place : Nat
  result : BackendResult
  cause : Cause

abbrev Placed := BackendResult × Nat

def succeeded? (p : Placed) : Option (Nat × RunOutcome) :=
  p.1.run.bind fun run => if run.succeeded then some (p.2, run) else none

def base? (results : List BackendResult) : Option (Nat × RunOutcome) :=
  results.zipIdx.findSome? succeeded?

namespace Finding

def rejection? (p : Placed) : Option Finding :=
  if p.1.compile.success then none else some ⟨p.2, p.1, .rejected⟩

def unrun? (plan : CallPlan) (p : Placed) : Option Finding :=
  if p.1.missingExecution then some ⟨p.2, p.1, .notRun plan⟩
  else p.1.executionError.map fun error => ⟨p.2, p.1, .broken plan error⟩

def difference? (plan : CallPlan) (base : Nat × RunOutcome) (p : Placed) : Option Finding :=
  if p.2 = base.1 then none
  else p.1.run.bind fun run =>
    let parts := Part.all.filter (Part.differs run base.2)
    if parts.isEmpty then none else some ⟨p.2, p.1, .differs plan run parts⟩

def ofCalls (results : List BackendResult) (plan : CallPlan) : List Finding :=
  results.zipIdx.filterMap (unrun? plan) ++
    match base? results with
    | some base => results.zipIdx.filterMap (difference? plan base)
    | none => []

def record (file : String) (f : Finding) : Except Misuse DivergenceRecord :=
  match f.cause with
  | .rejected => .ok (Classifier.compileRecord file f.result)
  | .notRun plan =>
    Classifier.callRecord .missingExecution file plan f.result (some RunOutcome.noOp) none none
  | .broken plan error =>
    Classifier.callRecord .executionError file plan f.result none (some error) none
  | .differs plan run parts =>
    Classifier.callRecord .outputMismatch file plan f.result (some run) none (some parts)

end Finding

/-- The findings of a variant: none if no backend compiled it, and none about calls unless one ran. -/
def findings (results : List BackendResult) (plan : Option CallPlan) : List Finding :=
  if results.any (·.compile.success) then
    results.zipIdx.filterMap Finding.rejection? ++
      match plan with
      | some plan => if results.any (·.run.isSome) then Finding.ofCalls results plan else []
      | none => []
  else []

/-! ## Classification records the findings -/

theorem mapM_filterMap {α β γ ε : Type} (g : α → Except ε (Option β)) (f : α → Option γ)
    (rec : γ → Except ε β)
    (h : ∀ a, g a = match f a with | some c => (rec c).map some | none => .ok none)
    (l : List α) : (l.mapM g).map (·.filterMap id) = (l.filterMap f).mapM rec := by
  induction l with
  | nil => rfl
  | cons a l ih =>
    rw [List.mapM_cons, h a, List.filterMap_cons]
    cases f a with
    | none =>
      rw [← ih]
      cases l.mapM g <;> rfl
    | some c =>
      simp only [List.mapM_cons, ← ih]
      cases rec c <;> cases l.mapM g <;> rfl

theorem mapM_filterMap_congr {α β γ δ ε : Type} {f : α → Option β} {f' : α → Option γ}
    {g : β → Except ε δ} {g' : γ → Except ε δ} (h : ∀ a, (f a).map g = (f' a).map g')
    (l : List α) : (l.filterMap f).mapM g = (l.filterMap f').mapM g' := by
  induction l with
  | nil => rfl
  | cons a l ih =>
    have ha := h a
    rw [List.filterMap_cons, List.filterMap_cons]
    cases hf : f a with
    | none =>
      cases hf' : f' a with
      | none => exact ih
      | some c => simp [hf, hf'] at ha
    | some b =>
      cases hf' : f' a with
      | none => simp [hf, hf'] at ha
      | some c =>
        rw [hf, hf', Option.map_some, Option.map_some, Option.some.injEq] at ha
        simp only [List.mapM_cons, ha, ih]

theorem mapM_placed {α β ε : Type} (g : α → Except ε β) (l : List α) :
    l.zipIdx.mapM (fun p => g p.1) = l.mapM g := by
  change l.zipIdx.mapM (g ∘ Prod.fst) = l.mapM g
  rw [← List.mapM_map, List.zipIdx_map_fst]

theorem mapM_rejections (file : String) (results : List BackendResult) :
    (results.zipIdx.filterMap Finding.rejection?).mapM (Finding.record file) =
      .ok ((results.filter (!·.compile.success)).map (Classifier.compileRecord file)) := by
  generalize 0 = n
  induction results generalizing n with
  | nil => rfl
  | cons r results ih =>
    rw [List.zipIdx_cons, List.filterMap_cons, List.filter_cons]
    cases h : r.compile.success with
    | true => simpa [Finding.rejection?, h] using ih (n + 1)
    | false =>
      simp only [Finding.rejection?, h, Bool.false_eq_true, ite_false, List.mapM_cons, ih (n + 1)]
      rfl

theorem mapM_unrun (file : String) (plan : CallPlan) (results : List BackendResult) :
    (results.mapM (Classifier.unrunRecord file plan)).map (·.filterMap id) =
      (results.zipIdx.filterMap (Finding.unrun? plan)).mapM (Finding.record file) := by
  rw [← mapM_placed]
  apply mapM_filterMap
  rintro ⟨r, i⟩
  simp only [Classifier.unrunRecord, Finding.unrun?]
  cases hm : r.missingExecution with
  | true => rfl
  | false => cases r.executionError <;> rfl

theorem baseIndex?_cons (r : BackendResult) (results : List BackendResult) :
    baseIndex? (r :: results) =
      if r.succeeded then some 0 else (baseIndex? results).map (· + 1) := by
  rw [baseIndex?, List.findIdx?_cons]; rfl

theorem succeeded?_eq (r : BackendResult) (i : Nat) :
    succeeded? (r, i) = if r.succeeded then r.run.map (i, ·) else none := by
  unfold succeeded? BackendResult.succeeded
  cases r.run <;> simp

theorem findSome?_succeeded (results : List BackendResult) (n : Nat) :
    (results.zipIdx n).findSome? succeeded? = (baseIndex? results).bind fun i =>
      results[i]?.bind fun r => r.run.map fun run => (n + i, run) := by
  induction results generalizing n with
  | nil => rfl
  | cons r results ih =>
    rw [List.zipIdx_cons, List.findSome?_cons, baseIndex?_cons, succeeded?_eq, ih (n + 1)]
    cases hs : r.succeeded with
    | true =>
      cases hr : r.run with
      | none => simp [BackendResult.succeeded, hr] at hs
      | some run => simp [hr]
    | false => cases baseIndex? results <;> simp [Nat.add_assoc, Nat.add_comm 1]

theorem base?_eq (results : List BackendResult) :
    base? results = (baseIndex? results).bind fun i =>
      results[i]?.bind fun r => r.run.map fun run => (i, run) := by
  rw [base?, findSome?_succeeded]; simp

def divergent? (base : Nat × RunOutcome) (p : Placed) :
    Option (BackendResult × RunOutcome × List Part) :=
  match p.1.run with
  | some run =>
    if p.2 = base.1 ∨ (run.divergencesFrom base.2).isEmpty then none
    else some (p.1, run, run.divergencesFrom base.2)
  | none => none

theorem diverging_eq (results : List BackendResult) :
    (Classifier.diverging results).map (·.2) =
      (base? results).map fun base => results.zipIdx.filterMap (divergent? base) := by
  rw [base?_eq]
  unfold Classifier.diverging
  cases baseIndex? results with
  | none => rfl
  | some i =>
    cases h : results[i]? with
    | none => simp [h]
    | some r =>
      cases hr : r.run with
      | none => simp [h, hr]
      | some run =>
        simp only [h, hr, Option.bind_eq_bind, Option.bind_some, Option.map_some,
          Option.some.injEq, Option.pure_def]
        rfl

theorem mapM_differences (file : String) (plan : CallPlan) (base : Nat × RunOutcome)
    (ps : List Placed) :
    (ps.filterMap (divergent? base)).mapM (fun (r, run, parts) =>
      Classifier.callRecord .outputMismatch file plan r (some run) none (some parts)) =
    (ps.filterMap (Finding.difference? plan base)).mapM (Finding.record file) := by
  apply mapM_filterMap_congr
  rintro ⟨r, i⟩
  unfold divergent? Finding.difference?
  cases hr : r.run with
  | none => by_cases hi : i = base.1 <;> simp [hi]
  | some run =>
    simp only [RunOutcome.divergencesFrom_eq, Option.bind_some]
    by_cases hi : i = base.1
    · simp [hi]
    · by_cases he : (Part.all.filter (Part.differs run base.2)).isEmpty
      · simp [hi, he]
      · simp only [hi, he, false_or, ite_false]; rfl

theorem base?_mem {results : List BackendResult} {base : Nat × RunOutcome}
    (h : base? results = some base) :
    ∃ r ∈ results, results[base.1]? = some r ∧ r.run = some base.2 ∧ base.2.succeeded = true := by
  obtain ⟨⟨r, i⟩, hm, hs⟩ := List.exists_of_findSome?_eq_some h
  have hi : results[i]? = some r := List.mk_mem_zipIdx_iff_getElem?.mp hm
  unfold succeeded? at hs
  cases hr : r.run with
  | none => simp [hr] at hs
  | some run =>
    simp only [hr, Option.bind_some, Option.ite_none_right_eq_some, Option.some.injEq] at hs
    obtain ⟨hok, rfl⟩ := hs
    exact ⟨r, List.mem_of_getElem? hi, hi, hr, hok⟩

theorem differences_of_allSame {results : List BackendResult} (hp : ∀ r ∈ results, r.Proper)
    (hs : Classifier.allSame results = true) (plan : CallPlan) {base : Nat × RunOutcome}
    (hb : base? results = some base) :
    results.zipIdx.filterMap (Finding.difference? plan base) = [] := by
  obtain ⟨b, hbm, -, hbr, -⟩ := base?_mem hb
  rw [List.filterMap_eq_nil_iff]
  rintro ⟨r, i⟩ hm
  have hr : r ∈ results := List.mem_of_getElem? (List.mk_mem_zipIdx_iff_getElem?.mp hm)
  unfold Finding.difference?
  by_cases hi : i = base.1
  · simp [hi]
  · cases hrun : r.run with
    | none => simp
    | some run =>
      have hnil := Classifier.divergencesFrom_of_allSame hp hs hr hbm hrun hbr
      rw [RunOutcome.divergencesFrom_eq] at hnil
      simp only [hi, ite_false, Option.bind_some, hnil, List.isEmpty_nil, ite_true]

theorem runRecords_eq {results : List BackendResult} (hp : ∀ r ∈ results, r.Proper)
    (file : String) (plan : CallPlan) :
    Classifier.runRecords results file plan =
      (match base? results with
        | some base => results.zipIdx.filterMap (Finding.difference? plan base)
        | none => []).mapM (Finding.record file) := by
  have hd := diverging_eq results
  unfold Classifier.runRecords
  cases hb : base? results with
  | none =>
    rw [hb, Option.map_none, Option.map_eq_none_iff] at hd
    cases Classifier.allSame results <;> simp [hd] <;> rfl
  | some base =>
    cases hs : Classifier.allSame results with
    | true => simp only [ite_true, differences_of_allSame hp hs plan hb]; rfl
    | false =>
      rw [hb, Option.map_some, Option.map_eq_some_iff] at hd
      obtain ⟨⟨b, others⟩, hd, rfl⟩ := hd
      simp only [hd, Bool.false_eq_true, ite_false]
      exact mapM_differences file plan base _

theorem mapM_ofCalls {results : List BackendResult} (hp : ∀ r ∈ results, r.Proper)
    (file : String) (plan : CallPlan) :
    (Finding.ofCalls results plan).mapM (Finding.record file) = do
      let unrun ← results.mapM (Classifier.unrunRecord file plan)
      let diverged ← Classifier.runRecords results file plan
      return unrun.filterMap id ++ diverged := by
  rw [Finding.ofCalls, List.mapM_append, ← runRecords_eq hp, ← mapM_unrun]
  cases results.mapM (Classifier.unrunRecord file plan) <;> rfl

/-- Classification makes one record of each finding, in order. -/
theorem classify_eq_mapM {results : List BackendResult} (hp : ∀ r ∈ results, r.Proper)
    (file : String) (plan : Option CallPlan) :
    classify results file plan = (findings results plan).mapM (Finding.record file) := by
  unfold classify findings
  cases results.any (·.compile.success) with
  | false => rfl
  | true =>
    rw [if_pos rfl, List.mapM_append, mapM_rejections]
    cases plan with
    | none => simp; rfl
    | some plan =>
      cases results.any (·.run.isSome) with
      | false => simp; rfl
      | true =>
        simp only [Bool.not_true, Bool.false_eq_true, ite_false, ite_true, mapM_ofCalls hp]
        cases results.mapM (Classifier.unrunRecord file plan) with
        | error e => rfl
        | ok unrun =>
          cases Classifier.runRecords results file plan with
          | error e => rfl
          | ok diverged => simp [bind, Except.bind, pure, Except.pure]

end BackendFuzz
