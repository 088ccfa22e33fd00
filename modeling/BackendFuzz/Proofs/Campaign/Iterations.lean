import BackendFuzz.Proofs.Campaign.Isolation
import BackendFuzz.Proofs.Campaign.Steps
import BackendFuzz.Proofs.Execution.Success

/-!
# Iterations

A campaign opens its results file, makes its tests one after the other, each from
the bench that the one before left, and prints its summary. Whatever cuts a test
short, the lines of the tests before it are in the results file, and none of its
own.
-/

namespace BackendFuzz

open Session

namespace Campaign

/-! ## One test -/

structure Made (c : Campaign) (o : Outside) (index : Int) (b b' : Bench) where
  variant : Variant
  plan : Option CallPlan
  results : List BackendResult
  report : TestReport
  generated : Bench
  presented : Bench
  planned : Bench
  tried : Bench
  judged : Bench
  generates : (c.tools.generate index).run o b = (.ok variant, generated)
  presents : (c.present variant).run o generated = (.ok (), presented)
  plans : (c.planFor variant).run o presented = (.ok plan, planned)
  tries : (c.tryBackends variant plan).run o planned = (.ok results, tried)
  judges : (c.judge index plan results).run o tried = (.ok report, judged)
  keeps : (c.keepSource (c.keptLate report) index variant).run o judged = (.ok (), b')

theorem made_of_run {c : Campaign} {o : Outside} {index : Int} {b b' : Bench} {report : TestReport}
    (h : (c.test index).run o b = (.ok report, b')) :
    ∃ t : c.Made o index b b', t.report = report := by
  rw [test_eq] at h
  obtain ⟨variant, generated, generates, h⟩ := run_bind_ok_inv h
  obtain ⟨_, presented, presents, h⟩ := run_bind_ok_inv h
  obtain ⟨plan, planned, plans, h⟩ := run_bind_ok_inv h
  obtain ⟨results, tried, tries, h⟩ := run_bind_ok_inv h
  obtain ⟨report', judged, judges, h⟩ := run_bind_ok_inv h
  obtain ⟨_, kept, keeps, h⟩ := run_bind_ok_inv h
  cases h
  exact ⟨⟨variant, plan, results, report, generated, presented, planned, tried, judged, generates,
    presents, plans, tries, judges, keeps⟩, rfl⟩

theorem judge_inv {c : Campaign} {o : Outside} {index : Int} {plan : Option CallPlan}
    {results : List BackendResult} {b b' : Bench} {report : TestReport}
    (h : (c.judge index plan results).run o b = (.ok report, b')) :
    classify results (c.variantPath index).text plan = .ok report.records ∧
      report.skipped = results.all (!·.compile.success) := by
  obtain ⟨records, b₁, hrecords, h⟩ := run_bind_ok_inv h
  obtain ⟨_, b₂, hlogged, h⟩ := run_bind_ok_inv h
  cases h
  rw [run_looking] at hrecords
  cases hclassify : classify results (c.variantPath index).text plan with
  | error cause => rw [hclassify] at hrecords; cases hrecords
  | ok found => rw [hclassify] at hrecords; cases hrecords; exact ⟨rfl, rfl⟩

/-! ## All tests -/

/-- One test with its lines, between two benches: made to its end, or cut short. -/
structure Iteration where
  index : Nat
  before : Bench
  after : Bench
  outcome : Except Fault TestReport

def Iteration.Ran (c : Campaign) (o : Outside) (it : Iteration) : Prop :=
  ∃ results r, (c.recordedTest it.index results).run o it.before = (r, it.after) ∧
    it.outcome = r.map (·.2)

theorem Iteration.Ran.made {c : Campaign} {o : Outside} {it : Iteration} (h : it.Ran c o)
    {report : TestReport} (hreport : it.outcome = .ok report) :
    ∃ (tested : Bench) (t : c.Made o it.index it.before tested), t.report = report := by
  obtain ⟨results, r, hrun, houtcome⟩ := h
  rw [hreport] at houtcome
  cases r with
  | error fault => cases houtcome
  | ok made =>
    obtain ⟨report', tested, htest, hwrite⟩ := run_bind_ok_inv hrun
    obtain ⟨results', b', -, hreturn⟩ := run_bind_ok_inv hwrite
    cases hreturn
    cases houtcome
    exact ⟨tested, made_of_run htest⟩

def reports (its : List Iteration) : List TestReport := its.filterMap (·.outcome.toOption)

def records (its : List Iteration) : List DivergenceRecord := (reports its).flatMap (·.records)

def linesOf (records : List DivergenceRecord) : String := String.join (records.map (·.line))

theorem linesOf_append (l l' : List DivergenceRecord) :
    linesOf (l ++ l') = linesOf l ++ linesOf l' := by
  simp [linesOf]

theorem records_ok (index : Nat) (before after : Bench) (report : TestReport)
    (its : List Iteration) :
    records (⟨index, before, after, .ok report⟩ :: its) = report.records ++ records its := rfl

def limitLine (c : Campaign) : String :=
  s!"Time limit of {c.config.timeLimitMs.getD 0}ms reached. Exiting..."

end Campaign

def Bench.showing (b : Bench) (line : String) : Bench := { b with printed := b.printed ++ [line] }

namespace Campaign

/-- The tests of a campaign, at most `left` of them from `index` on, between two benches: each is
one iteration, and after each that is made to its end its progress is shown and the clock read. -/
inductive Iterates (c : Campaign) (o : Outside) (deadline : Option Binary64) : Nat → Nat →
    ResultsFile → CampaignStats → Bench → List Iteration → CampaignStats → Ending → Bench → Prop
  | spent {index : Nat} {results : ResultsFile} {stats : CampaignStats} {b : Bench} :
    Iterates c o deadline 0 index results stats b [] stats .spent b
  | cut {left index : Nat} {results : ResultsFile} {stats : CampaignStats} {b b' : Bench}
    {fault : Fault} (h : (c.recordedTest index results).run o b = (.error fault, b')) :
    Iterates c o deadline (left + 1) index results stats b [⟨index, b, b', .error fault⟩] stats
      (.faulted fault) b'
  | due {left index : Nat} {results results' : ResultsFile} {stats stats' : CampaignStats}
    {b b₁ b₂ : Bench} {report : TestReport}
    (h : (c.recordedTest index results).run o b = (.ok (results', report), b₁))
    (hstats : stats' = countTest stats report)
    (ht : (timeUp deadline).run o (b₁.showing (progressLine index report stats')) = (.ok true, b₂)) :
    Iterates c o deadline (left + 1) index results stats b [⟨index, b, b₁, .ok report⟩]
      { stats' with timeLimitReached := true } .timeUp (b₂.showing c.limitLine)
  | next {left index : Nat} {results results' : ResultsFile} {stats stats' stats'' : CampaignStats}
    {b b₁ b₂ b' : Bench} {report : TestReport} {its : List Iteration} {ending : Ending}
    (h : (c.recordedTest index results).run o b = (.ok (results', report), b₁))
    (hstats : stats' = countTest stats report)
    (ht : (timeUp deadline).run o (b₁.showing (progressLine index report stats')) = (.ok false, b₂))
    (hrest : Iterates c o deadline left (index + 1) results' stats' b₂ its stats'' ending b') :
    Iterates c o deadline (left + 1) index results stats b (⟨index, b, b₁, .ok report⟩ :: its)
      stats'' ending b'

section
variable {c : Campaign} {o : Outside} {deadline : Option Binary64}

theorem run_tests_iterates (left index : Nat) (results : ResultsFile) (stats : CampaignStats)
    (b : Bench) : ∃ its stats' ending b',
      (c.tests deadline left index results stats).run o b = (.ok (stats', ending), b') ∧
      c.Iterates o deadline left index results stats b its stats' ending b' := by
  induction left generalizing index results stats b with
  | zero => exact ⟨[], stats, .spent, b, rfl, .spent⟩
  | succ left ih =>
    have hattempt := run_attempt o b (c.recordedTest index results)
    unfold tests
    rcases h : (c.recordedTest index results).run o b with ⟨fault | ⟨results', report⟩, b₁⟩
    · rw [h] at hattempt
      rw [run_bind_ok hattempt]
      exact ⟨_, _, _, _, rfl, .cut h⟩
    · rw [h] at hattempt
      rw [run_bind_ok hattempt]
      dsimp only
      have hshown : (printLine (progressLine index report (countTest stats report))).run o b₁ =
          (.ok (), b₁.showing (progressLine index report (countTest stats report))) := rfl
      obtain ⟨due, readings, ht, -⟩ := run_timeUp o deadline
        (b₁.showing (progressLine index report (countTest stats report)))
      rw [run_bind_ok hshown, run_bind_ok ht]
      cases due with
      | true => exact ⟨_, _, _, _, rfl, .due h rfl ht⟩
      | false =>
        obtain ⟨its, stats', ending, b', hrest, hits⟩ := ih (index + 1) results'
          (countTest stats report)
          { b₁.showing (progressLine index report (countTest stats report)) with readings }
        exact ⟨_, _, _, _, hrest, .next h rfl ht hits⟩

theorem timeUp_bench {b b' : Bench} {due : Bool}
    (h : (timeUp deadline).run o b = (.ok due, b')) : ∃ readings, b' = { b with readings } := by
  obtain ⟨due', readings, hrun, -⟩ := run_timeUp o deadline b
  rw [h] at hrun
  cases hrun
  exact ⟨readings, rfl⟩

theorem Iterates.head {left index : Nat} {results : ResultsFile} {stats stats' : CampaignStats}
    {b b' : Bench} {its : List Iteration} {ending : Ending}
    (h : c.Iterates o deadline left index results stats b its stats' ending b') {first : Iteration}
    (hfirst : its.head? = some first) : first.before = b := by
  cases h <;> cases hfirst <;> rfl

section
variable {left index : Nat} {results : ResultsFile} {stats stats' : CampaignStats} {b b' : Bench}
  {its : List Iteration} {ending : Ending}

theorem Iterates.ran (h : c.Iterates o deadline left index results stats b its stats' ending b') :
    ∀ it ∈ its, it.Ran c o := by
  induction h with
  | spent => exact List.forall_mem_nil _
  | cut h => exact List.forall_mem_singleton.mpr ⟨_, _, h, rfl⟩
  | due h => exact List.forall_mem_singleton.mpr ⟨_, _, h, rfl⟩
  | next h hstats ht hrest ih => exact List.forall_mem_cons.mpr ⟨⟨_, _, h, rfl⟩, ih⟩

theorem Iterates.numbered
    (h : c.Iterates o deadline left index results stats b its stats' ending b') :
    its.map (·.index) = List.range' index its.length := by
  induction h with
  | spent => rfl
  | cut h => rfl
  | due h => rfl
  | next h hstats ht hrest ih => rw [List.map_cons, ih, List.length_cons, List.range'_succ]

/-- Only the last iteration can be cut short, and then it is why the tests ended. -/
theorem Iterates.cut_last
    (h : c.Iterates o deadline left index results stats b its stats' ending b') :
    (∀ it ∈ its.dropLast, ∃ report, it.outcome = .ok report) ∧
      ∀ it ∈ its, ∀ fault, it.outcome = .error fault → ending = .faulted fault := by
  induction h with
  | spent => exact ⟨List.forall_mem_nil _, List.forall_mem_nil _⟩
  | cut h =>
    refine ⟨List.forall_mem_nil _, List.forall_mem_singleton.mpr fun fault h => ?_⟩
    rw [Except.error.inj h]
  | due h => exact ⟨List.forall_mem_nil _, List.forall_mem_singleton.mpr fun fault h => by cases h⟩
  | @next left index results results' stats stats₁ stats₂ b b₁ b₂ b' report its ending h hstats ht
      hrest ih =>
    refine ⟨fun it hit => ?_, List.forall_mem_cons.mpr ⟨fun fault h => by (cases h), ih.2⟩⟩
    cases its with
    | nil => cases hit
    | cons next rest =>
      rw [List.dropLast_cons_cons] at hit
      rcases List.mem_cons.mp hit with rfl | hit
      · exact ⟨_, rfl⟩
      · exact ih.1 it hit

end

/-! ## The whole campaign -/

/-- The iterations of a campaign that starts on a bench, with its counters, how the tests ended, and
the bench before the summary: there are none if the results file cannot be opened. -/
inductive Proceeds (c : Campaign) (o : Outside) (budget : Nat) (deadline : Option Binary64)
    (b : Bench) : List Iteration → CampaignStats → Ending → Bench → Prop
  | unopened {fault : Fault} {b' : Bench}
    (h : (ResultsFile.mk c.resultsPath none 0).opened.run o (c.started b) = (.error fault, b')) :
    Proceeds c o budget deadline b [] {} (.faulted fault) b'
  | opened {results : ResultsFile} {b₁ b' : Bench} {its : List Iteration} {stats : CampaignStats}
    {ending : Ending}
    (h : (ResultsFile.mk c.resultsPath none 0).opened.run o (c.started b) = (.ok results, b₁))
    (hits : c.Iterates o deadline (c.testsAtMost budget) 0 results {} b₁ its stats ending b') :
    Proceeds c o budget deadline b its stats ending b'

section
variable {budget : Nat} {b b' : Bench} {its : List Iteration} {stats : CampaignStats}
  {ending : Ending}

theorem Proceeds.ran (h : c.Proceeds o budget deadline b its stats ending b') :
    ∀ it ∈ its, it.Ran c o := by
  cases h with
  | unopened h => exact List.forall_mem_nil _
  | opened h hits => exact hits.ran

theorem Proceeds.numbered (h : c.Proceeds o budget deadline b its stats ending b') :
    its.map (·.index) = List.range its.length := by
  cases h with
  | unopened h => rfl
  | opened h hits => rw [hits.numbered, List.range_eq_range']

theorem Proceeds.cut_last (h : c.Proceeds o budget deadline b its stats ending b') :
    (∀ it ∈ its.dropLast, ∃ report, it.outcome = .ok report) ∧
      ∀ it ∈ its, ∀ fault, it.outcome = .error fault → ending = .faulted fault := by
  cases h with
  | unopened h => exact ⟨List.forall_mem_nil _, List.forall_mem_nil _⟩
  | opened h hits => exact hits.cut_last

end

def endOf (c : Campaign) (stats : CampaignStats) : Ending → Except Fault Unit → CampaignEnd
  | _, .error fault => .faulted stats fault
  | .faulted fault, .ok () => .faulted stats fault
  | .timeUp, .ok () => .finished stats
  | .spent, .ok () => if c.config.testLimit.isNone then .unfinished stats else .finished stats

theorem endOf_stats (stats : CampaignStats) (ending : Ending) (r : Except Fault Unit) :
    (c.endOf stats ending r).stats = stats := by
  unfold endOf
  split
  · rfl
  · rfl
  · rfl
  · split <;> rfl

def summed (c : Campaign) (start : Binary64) (stats : CampaignStats) (ending : Ending) :
    Session CampaignEnd := do
  match ← Session.attempt (conclude start stats), ending with
  | .error fault, _ => return .faulted stats fault
  | .ok (), .faulted fault => return .faulted stats fault
  | .ok (), .timeUp => return .finished stats
  | .ok (), .spent =>
    if c.config.testLimit.isNone then return .unfinished stats else return .finished stats

theorem run_summed (start : Binary64) (stats : CampaignStats) (ending : Ending) (b : Bench) :
    (c.summed start stats ending).run o b =
      (.ok (c.endOf stats ending ((conclude start stats).run o b).1),
        ((conclude start stats).run o b).2) := by
  unfold summed
  rw [run_bind_ok (run_attempt o b _)]
  rcases (conclude start stats).run o b with ⟨fault | ⟨⟩, b'⟩
  · rfl
  · cases ending with
    | spent =>
      dsimp only [endOf]
      split <;> rfl
    | timeUp => rfl
    | faulted fault => rfl

/-- A campaign is its iterations and then its summary. -/
theorem run_proceeds (c : Campaign) (budget : Nat) (b : Bench)
    (hd : deadlineFrom (o.clock b.readings) c.config.timeLimitMs = .ok deadline) :
    ∃ its stats ending b₁, c.Proceeds o budget deadline b its stats ending b₁ ∧
      (c.run budget).run o b =
        (.ok (c.endOf stats ending ((conclude (o.clock b.readings) stats).run o b₁).1),
          ((conclude (o.clock b.readings) stats).run o b₁).2) := by
  have hattempt := run_attempt o (c.started b) (ResultsFile.mk c.resultsPath none 0).opened
  unfold run
  rw [run_bind_ok (run_readClock o b), hd, run_bind_ok (run_ofExcept o _ _)]
  dsimp only
  rw [run_bind_ok (run_info o _ _ _)]
  rcases h : (ResultsFile.mk c.resultsPath none 0).opened.run o (c.started b) with
    ⟨fault | results, b₁⟩
  · rw [h] at hattempt
    dsimp only [started] at hattempt
    rw [run_bind_ok hattempt]
    exact ⟨_, _, _, _, .unopened h, run_summed _ _ _ _⟩
  · rw [h] at hattempt
    dsimp only [started] at hattempt
    rw [run_bind_ok hattempt]
    dsimp only
    obtain ⟨its, stats, ending, b', htests, hits⟩ := @run_tests_iterates c o deadline
      (c.testsAtMost budget) 0 results {} b₁
    rw [run_bind_ok htests]
    exact ⟨_, _, _, _, .opened h hits, run_summed _ _ _ _⟩

/-- The iterations of a whole run, what it gives and the bench it leaves: there are none if its time
limit is too long for a deadline. -/
inductive Runs (c : Campaign) (o : Outside) (budget : Nat) (b : Bench) :
    List Iteration → Except Fault CampaignEnd → Bench → Prop
  | refused {fault : Fault}
    (hd : deadlineFrom (o.clock b.readings) c.config.timeLimitMs = .error fault) :
    Runs c o budget b [] (.error fault) { b with readings := b.readings + 1 }
  | made {deadline : Option Binary64} {its : List Iteration} {stats : CampaignStats}
    {ending : Ending} {b₁ b' : Bench} {r : Except Fault Unit}
    (hd : deadlineFrom (o.clock b.readings) c.config.timeLimitMs = .ok deadline)
    (h : c.Proceeds o budget deadline b its stats ending b₁)
    (hlast : (conclude (o.clock b.readings) stats).run o b₁ = (r, b')) :
    Runs c o budget b its (.ok (c.endOf stats ending r)) b'

theorem run_spec (c : Campaign) (o : Outside) (budget : Nat) (b : Bench) : ∃ its r b',
    c.Runs o budget b its r b' ∧ (c.run budget).run o b = (r, b') := by
  cases hd : deadlineFrom (o.clock b.readings) c.config.timeLimitMs with
  | error fault =>
    refine ⟨[], _, _, .refused hd, ?_⟩
    unfold run
    rw [run_bind_ok (run_readClock o b), hd, run_bind_error (run_ofExcept o _ _)]
  | ok deadline =>
    obtain ⟨its, stats, ending, b₁, h, hrun⟩ := run_proceeds c budget b hd
    exact ⟨its, _, _, .made hd h rfl, hrun⟩

theorem Runs.ran {budget : Nat} {b b' : Bench} {its : List Iteration}
    {r : Except Fault CampaignEnd} (h : c.Runs o budget b its r b') : ∀ it ∈ its, it.Ran c o := by
  cases h with
  | refused hd => exact List.forall_mem_nil _
  | made hd h hlast => exact h.ran

/-! ## One bench, one run -/

/-- Two runs from the same bench are the same if as many tests are left for both, and also if they
make as many. -/
theorem Iterates.unique {left left' index : Nat} {results : ResultsFile}
    {stats stats₁ stats₂ : CampaignStats} {b b₁ b₂ : Bench} {its its' : List Iteration}
    {ending ending' : Ending}
    (h : c.Iterates o deadline left index results stats b its stats₁ ending b₁)
    (h' : c.Iterates o deadline left' index results stats b its' stats₂ ending' b₂)
    (hsame : left = left' ∨ its.length = its'.length) :
    its = its' ∧ stats₁ = stats₂ ∧ ending = ending' ∧ b₁ = b₂ := by
  induction h generalizing left' its' with
  | spent =>
    cases h' with
    | spent => exact ⟨rfl, rfl, rfl, rfl⟩
    | _ => simp at hsame
  | cut h =>
    cases h' with
    | spent => simp at hsame
    | cut h' => cases h.symm.trans h'; exact ⟨rfl, rfl, rfl, rfl⟩
    | due h' => cases h.symm.trans h'
    | next h' => cases h.symm.trans h'
  | due h hstats hdue =>
    cases h' with
    | spent => simp at hsame
    | cut h' => cases h.symm.trans h'
    | due h' hstats' hdue' =>
      cases h.symm.trans h'
      cases hstats.trans hstats'.symm
      cases hdue.symm.trans hdue'
      exact ⟨rfl, rfl, rfl, rfl⟩
    | next h' hstats' hdue' =>
      cases h.symm.trans h'
      cases hstats.trans hstats'.symm
      cases hdue.symm.trans hdue'
  | next h hstats hdue hrest ih =>
    cases h' with
    | spent => simp at hsame
    | cut h' => cases h.symm.trans h'
    | due h' hstats' hdue' =>
      cases h.symm.trans h'
      cases hstats.trans hstats'.symm
      cases hdue.symm.trans hdue'
    | next h' hstats' hdue' hrest' =>
      cases h.symm.trans h'
      cases hstats.trans hstats'.symm
      cases hdue.symm.trans hdue'
      obtain ⟨rfl, rfl, rfl, rfl⟩ := ih hrest' (hsame.imp Nat.succ.inj Nat.succ.inj)
      exact ⟨rfl, rfl, rfl, rfl⟩

theorem Proceeds.unique {budget budget' : Nat} {stats stats' : CampaignStats} {b b₁ b₂ : Bench}
    {its its' : List Iteration} {ending ending' : Ending}
    (h : c.Proceeds o budget deadline b its stats ending b₁)
    (h' : c.Proceeds o budget' deadline b its' stats' ending' b₂)
    (hsame : budget = budget' ∨ its.length = its'.length) :
    its = its' ∧ stats = stats' ∧ ending = ending' ∧ b₁ = b₂ := by
  cases h with
  | unopened h =>
    cases h' with
    | unopened h' => cases h.symm.trans h'; exact ⟨rfl, rfl, rfl, rfl⟩
    | opened h' => cases h.symm.trans h'
  | opened h hits =>
    cases h' with
    | unopened h' => cases h.symm.trans h'
    | opened h' hits' =>
      cases h.symm.trans h'
      exact hits.unique hits' (hsame.imp_left fun hbudget => by rw [hbudget])

/-- The outcome of a run is told by its budget, and by the number of its tests. -/
theorem Runs.unique {budget budget' : Nat} {b b₁ b₂ : Bench} {its its' : List Iteration}
    {r r' : Except Fault CampaignEnd} (h : c.Runs o budget b its r b₁)
    (h' : c.Runs o budget' b its' r' b₂) (hsame : budget = budget' ∨ its.length = its'.length) :
    r = r' ∧ b₁ = b₂ := by
  cases h with
  | refused hd =>
    cases h' with
    | refused hd' => cases hd.symm.trans hd'; exact ⟨rfl, rfl⟩
    | made hd' => cases hd.symm.trans hd'
  | made hd h hlast =>
    cases h' with
    | refused hd' => cases hd.symm.trans hd'
    | made hd' h' hlast' =>
      cases hd.symm.trans hd'
      obtain ⟨rfl, rfl, rfl, rfl⟩ := h.unique h' hsame
      cases hlast.symm.trans hlast'
      exact ⟨rfl, rfl⟩

/-! ## The results file -/

structure Open (c : Campaign) (d place : Place) (results : ResultsFile) (content : ByteArray)
    (files : FileStore) : Prop where
  placed : c.Placed d files
  named : ∃ tail, place = d.down (c.baseName ++ ".results." ++ tail)
  located : files.locate c.resultsPath = .ok place
  opened : results.place = some place
  holds : files.at? place = some (.file content)

section
variable {settings : Settings} {d place : Place} {results results' : ResultsFile}
  {content : ByteArray} {b b' : Bench} {index : Nat} {report : TestReport}

theorem Open.reached {files : FileStore} (h : c.Open d place results content files) :
    files.Reached place := by
  obtain ⟨tail, rfl⟩ := h.named
  exact h.placed.reached _

/-- No source is kept where the results file is. -/
theorem Open.ne_source {files : FileStore} (h : c.Open d place results content files)
    (index : Int) : place ≠ d.down (c.sourceName index) := by
  obtain ⟨tail, rfl⟩ := h.named
  intro he
  have hname := congrArg String.toList (Place.down_inj he)
  simp [sourceName, toString, String.toList_append] at hname

theorem Open.changes {files files' : FileStore} {W : Place → Prop}
    (h : c.Open d place results content files) (hf : files.Changes W files') (hw : ¬ W place) :
    c.Open d place results content files' where
  placed := h.placed.changes hf
  named := h.named
  located := hf.locate h.located
  opened := h.opened
  holds := by rw [hf.at? h.reached hw, h.holds]

theorem run_opened_open (hc : c.Equipped settings)
    (h : (ResultsFile.mk c.resultsPath none 0).opened.run o b = (.ok results, b')) :
    ∃ d place files events, b' = { b with files, events } ∧ b.files.Grows files ∧
      c.Open d place results (b.files.contentAt place) files := by
  obtain ⟨tail, hpath⟩ := hc.results
  obtain ⟨place, d, files, events, hb, hplace, hgrows, hlocate, hcontent, hd, hthere⟩ := run_opened h
  have hparent : c.resultsPath.parent = c.directory := by rw [hpath, Path.parent_child]
  dsimp only at hlocate hd
  rw [hparent] at hd
  have hdots : c.baseName ++ ".results." ++ tail ≠ ".." := by
    intro he
    have hlength := congrArg String.length he
    have hresults : ".results.".length = 9 := rfl
    have hdots : "..".length = 2 := rfl
    simp only [String.length_append, hresults, hdots] at hlength
    omega
  refine ⟨d, place, files, events, hb, hgrows, ⟨hd, hthere⟩, ⟨tail, ?_⟩, hlocate, hplace, hcontent⟩
  rw [hpath] at hlocate
  exact FileStore.locate_child hdots hd hlocate

variable (hc : c.Equipped settings)
include hc

theorem Open.test (ho : c.Open d place results content b.files) {r : Except Fault TestReport}
    (h : (c.test index).run o b = (r, b')) : c.Open d place results content b'.files := by
  have hfiles := ((leaves_test (d := d) hc index).of_run h).files ho.placed
  exact ho.changes hfiles (ho.ne_source index)

/-- What cuts an iteration short is the test itself. -/
theorem Open.cut (ho : c.Open d place results content b.files) {fault : Fault}
    (h : (c.recordedTest index results).run o b = (.error fault, b')) :
    (c.test index).run o b = (.error fault, b') ∧ c.Open d place results content b'.files := by
  unfold recordedTest at h
  rcases htest : (c.test index).run o b with ⟨fault' | report, b₁⟩
  · rw [run_bind_error htest] at h
    cases h
    exact ⟨rfl, ho.test hc htest⟩
  -- Lines are always encodable and the file is open, so adding them does not fault.
  · have ho₁ := ho.test hc htest
    obtain ⟨results', files, hwrite, -⟩ := run_write (o := o) ho₁.opened ho₁.holds
      (encode_lines report.records)
    rw [run_bind_ok htest, run_bind_ok hwrite] at h
    cases h

/-- An iteration that is made to its end adds its lines to the results file. -/
theorem Open.done (ho : c.Open d place results content b.files)
    (h : (c.recordedTest index results).run o b = (.ok (results', report), b')) :
    ∃ tested files, (c.test index).run o b = (.ok report, tested) ∧ b' = { tested with files } ∧
      tested.files.Changes (· = place) files ∧
      c.Open d place results' (content ++ (linesOf report.records).toUTF8) files := by
  unfold recordedTest at h
  obtain ⟨report', tested, htest, h⟩ := run_bind_ok_inv h
  have ho₁ := ho.test hc htest
  obtain ⟨results'', files, hwrite, hplace, hcontent, hsame⟩ := run_write (o := o) ho₁.opened
    ho₁.holds (encode_lines report'.records)
  rw [run_bind_ok hwrite] at h
  cases h
  have hchanges : tested.files.Changes (· = place) files := by
    rcases hsame with rfl | rfl
    · exact refl_of (FileStore.Changes (· = place)) tested.files
    · exact FileStore.changes_appendAt (W := (· = place)) rfl _
  exact ⟨tested, files, htest, rfl, hchanges, ho₁.placed.changes hchanges, ho₁.named,
    hchanges.locate ho₁.located, hplace, hcontent⟩

theorem Iterates.written {left index : Nat} {stats stats' : CampaignStats} {its : List Iteration}
    {ending : Ending} (h : c.Iterates o deadline left index results stats b its stats' ending b')
    (ho : c.Open d place results content b.files) : ∃ results',
    c.Open d place results' (content ++ (linesOf (records its)).toUTF8) b'.files := by
  have hnone : content ++ (linesOf []).toUTF8 = content := ByteArray.append_empty
  -- The content grows along the induction: `Open` holds of what each iteration leaves.
  induction h generalizing content with
  | spent => exact ⟨_, hnone.symm ▸ ho⟩
  | cut h => exact ⟨_, hnone.symm ▸ (ho.cut hc h).2⟩
  | @due left index results results' stats stats₁ b b₁ b₂ report h hstats ht =>
    obtain ⟨tested, files, -, rfl, -, ho'⟩ := ho.done hc h
    obtain ⟨readings, rfl⟩ := timeUp_bench ht
    refine ⟨results', ?_⟩
    rw [records_ok, records, reports, List.filterMap_nil, List.flatMap_nil, List.append_nil]
    exact ho'
  | @next left index results results' stats stats₁ stats₂ b b₁ b₂ b' report its ending h hstats ht
      hrest ih =>
    obtain ⟨tested, files, -, rfl, -, ho'⟩ := ho.done hc h
    obtain ⟨readings, rfl⟩ := timeUp_bench ht
    obtain ⟨results'', hlast⟩ := ih ho' ByteArray.append_empty
    refine ⟨results'', ?_⟩
    rw [records_ok, linesOf_append, String.toUTF8, String.toByteArray_append,
      ← ByteArray.append_assoc]
    exact hlast

/-- What a campaign leaves in its results file: what was there, and the lines of its iterations. -/
theorem Proceeds.written {budget : Nat} {its : List Iteration} {stats : CampaignStats}
    {ending : Ending} (h : c.Proceeds o budget deadline b its stats ending b') :
    (its = [] ∧ stats = {} ∧ ∃ fault, ending = .faulted fault) ∨ ∃ d place results,
      c.Open d place results (b.files.contentAt place ++ (linesOf (records its)).toUTF8)
        b'.files := by
  cases h with
  | unopened h => exact Or.inl ⟨rfl, rfl, _, rfl⟩
  | @opened results b₁ b' its stats ending h hits =>
    obtain ⟨d, place, files, events, rfl, -, ho⟩ := run_opened_open hc h
    obtain ⟨results', hlast⟩ := hits.written hc ho
    exact Or.inr ⟨d, place, results', hlast⟩

end

end

end Campaign

/-! ## A campaign with one record -/

namespace Sample

def ranReply : MachineReply where
  reply := .ended { output := "Result:   success\nOutput:   05\n" }
  storage := some "{}".toUTF8
  logs := some "[]".toUTF8

def divided : Outside :=
  outsideWith fun asked _ => if asked.length < 4 then ranReply else ⟨.timedOut, none, none⟩

theorem verdict_ran (command : List Json) :
    Machine.verdict {} command ranReply = .ok { status := "success", output := "05" } := by
  have hreport : readReport "Result:   success\nOutput:   05\n" = some ("success", "05") := by
    decide +kernel
  have hstorage : Json.parse "{}" = .ok (.object []) := by
    unfold Json.parse Json.parseWithin
    simp only [String.reduceToList]
    rfl
  have hlogs : Json.parse "[]" = .ok (.array []) := by
    unfold Json.parse Json.parseWithin
    simp only [String.reduceToList]
    rfl
  have hdump : ∀ path what, Machine.dumpOf path what (some "{}".toUTF8) = .ok (.object []) :=
    fun _ _ => Machine.dumpOf_ok_iff.mpr
      ⟨_, rfl, Machine.dumpHolds_of_allPlain (by decide) hstorage⟩
  have hdump' : ∀ path what, Machine.dumpOf path what (some "[]".toUTF8) = .ok (.array []) :=
    fun _ _ => Machine.dumpOf_ok_iff.mpr ⟨_, rfl, Machine.dumpHolds_of_allPlain (by decide) hlogs⟩
  simp only [Machine.verdict, Machine.observed, Machine.endedOf, ranReply, hreport, hdump, hdump',
    ne_eq, not_true_eq_false, ite_false, ok_bind]
  rfl

def plan : CallPlan := { functionName := "f", types := [], values := [], encoded := "" }

theorem callData (backend : Backend) :
    plan.callData (target.outcome backend).selectors = .ok (some "0x26121ff0") := by
  have h : plan.callData (Selectors.ofFields target.selectors) = .ok (some "0x26121ff0") := by
    decide +kernel
  exact h

def timeout (backend : Backend) : ProcessFault where
  cause := .machineTimeout (Settings.vmTimeout {})
  command := Machine.command {} (.text "c0") "0x26121ff0" backend.revision

def ran : BackendResult where
  compile := target.outcome ⟨"a"⟩
  run := some { status := "success", output := "05" }

def broken : BackendResult where
  compile := target.outcome ⟨"b"⟩
  executionError := some (timeout ⟨"b"⟩).message

def record : DivergenceRecord where
  category := .executionError
  file := sourcePath.text
  version := "b"
  error := some (timeout ⟨"b"⟩).message
  functionName := some "f"
  encodedCall := some "0x26121ff0"
  callParameters := some []

theorem allSame_results : Classifier.allSame [ran, broken] = true := by
  simp [Classifier.allSame, BackendResult.compared, ran, broken]

variable {file : String}

theorem classificationEvents_results :
    classificationEvents [ran, broken] file (some plan) = [] := by
  have hany : [ran, broken].any (·.compile.success) = true := rfl
  simp only [classificationEvents, hany, allSame_results, Bool.not_true, Bool.false_eq_true,
    ite_false, Bool.or_true, ite_true]

theorem classify_results :
    classify [ran, broken] file (some plan) = .ok [{ record with file }] := by
  have hcall : plan.callData broken.compile.selectors = .ok (some "0x26121ff0") := callData ⟨"b"⟩
  have hbroken : Classifier.callRecord .executionError file plan broken none
      (some (timeout ⟨"b"⟩).message) none = .ok { record with file } := by
    rw [Classifier.callRecord, hcall]
    rfl
  have hunrun : [ran, broken].mapM (Classifier.unrunRecord file plan) =
      .ok [none, some { record with file }] := by
    have h : Classifier.unrunRecord file plan broken = .ok (some { record with file }) := by
      have hmissing : broken.missingExecution = false := rfl
      have herror : broken.executionError = some (timeout ⟨"b"⟩).message := rfl
      simp only [Classifier.unrunRecord, hmissing, herror, hbroken, ok_bind, Bool.false_eq_true,
        ite_false]
      rfl
    rw [List.mapM_cons, List.mapM_cons, h]
    rfl
  unfold classify
  simp only [Classifier.runRecords, hunrun, allSame_results]
  rfl

variable {b : Bench}

theorem run_tryBackend (backend : Backend) (hi : b.memory.installed.contains backend.version = true)
    (hb : backend.isEof = false) (hu : b.files.Unused Machine.scratchPlace) : ∃ asked events,
    (campaign.tryBackend variant (some plan) backend).run divided b =
      (Campaign.called (target.outcome backend) (Machine.verdict {} (timeout backend).command
        (if b.asked.length + 2 < 4 then ranReply else ⟨.timedOut, none, none⟩)),
      { b with asked, events }) ∧ asked.length = b.asked.length + 3 := by
  obtain ⟨r, r', events, hcompile⟩ := run_compile (o := divided) (v := variant) (fun _ _ => rfl)
    (fun _ _ => rfl) rfl hb hi
  have hreply : divided.machine (b.asked ++ [r] ++ [r']) (.text "c0") =
      if b.asked.length + 2 < 4 then ranReply else ⟨.timedOut, none, none⟩ := by
    simp [divided, outsideWith]
  obtain ⟨events', hexecute⟩ := @Machine.run_execute divided
    { b with asked := b.asked ++ [r] ++ [r'], events } {} (.text "c0") "0x26121ff0"
    backend.revision rfl hu
  have htruthy : (target.outcome backend).bytecode.truthy = true := by rfl
  obtain ⟨events'', hrun⟩ := @Campaign.run_runCall campaign _ _ _ 0 backend _ _ _ htruthy
    (callData backend) _ hexecute
  refine ⟨b.asked ++ [r] ++ [r'] ++ [Machine.request {} (.text "c0") "0x26121ff0" backend.revision],
    events'', ?_, ?_⟩
  · unfold Campaign.tryBackend
    rw [run_bind_ok hcompile, ← hreply]
    exact hrun
  · simp

theorem called_ran : Campaign.called (target.outcome ⟨"a"⟩)
    (Machine.verdict {} (timeout ⟨"a"⟩).command ranReply) = .ok ran := by
  rw [verdict_ran]
  rfl

theorem called_broken : Campaign.called (target.outcome ⟨"b"⟩)
    (Machine.verdict {} (timeout ⟨"b"⟩).command ⟨.timedOut, none, none⟩) = .ok broken := by
  have hverdict : Machine.verdict {} (timeout ⟨"b"⟩).command ⟨.timedOut, none, none⟩ =
      .error (.process (timeout ⟨"b"⟩)) := by
    simp only [Machine.verdict, Machine.observed, Machine.endedOf, error_bind]
    rfl
  rw [hverdict]
  rfl

theorem locate_source (files : FileStore) : files.locate sourcePath = .ok sourcePlace :=
  FileStore.locate_name files (by decide) (by decide) (by decide)

def campaignIn (directory : Path) : Campaign :=
  { campaign with directory, resultsPath := directory.child "c.results.jsonl" }

theorem equippedIn (directory : Path) : (campaignIn directory).Equipped {} where
  generates := onTools.generates
  compiles := ⟨none, rfl, rfl⟩
  executes := rfl
  results := by
    have hname : "c" ++ ".results." ++ "jsonl" = "c.results.jsonl" := by decide
    exact ⟨"jsonl", congrArg directory.child hname.symm⟩

theorem equipped : campaign.Equipped {} := equippedIn ⟨"", []⟩

variable {directory : Path}

structure Reachable (directory : Path) (files : FileStore) : Prop where
  there : files.ensureDirectories directory = .ok files
  source : ∃ p, files.locate ((campaignIn directory).variantPath 0) = .ok p

theorem run_keepSource {b : Bench} (hdirectory : directory.flaw? = none)
    (hpath : ((campaignIn directory).variantPath 0).flaw? = none)
    (hr : Reachable directory b.files) :
    ∃ b', ((campaignIn directory).keepSource true 0 variant).run divided b = (.ok (), b') := by
  obtain ⟨r, hrender⟩ := renders (o := divided) (fun _ _ => rfl)
    (by rfl : (Backend.mk "a").isEof = false) b
  have hrendered : ((campaignIn directory).renderFirst variant).run divided b =
      (.ok (.text "x"), { b with asked := b.asked ++ [r] }) := hrender
  have hfiles : ({ b with asked := b.asked ++ [r] } : Bench).files = b.files := rfl
  generalize ({ b with asked := b.asked ++ [r] } : Bench) = b₁ at hrendered hfiles
  rw [← hfiles] at hr
  obtain ⟨p, hlocate⟩ := hr.source
  have hencode : Text.encode "x" = .ok "x".toUTF8 := Text.encode_of_low (by simp)
  obtain ⟨saved, b', hstored⟩ := storeSource_ok divided hpath hlocate hencode
  have hparent : ((campaignIn directory).variantPath 0).parent = directory := Path.parent_child _ _
  have hmade : (furnish directory).run divided b₁ = (.ok (), b₁) :=
    run_furnish _ b₁ hdirectory (FileStore.ensureDirectories_eq_ok_iff.mp hr.there)
  have hsaved : (saveVariant ((campaignIn directory).variantPath 0) (.text "x")).run divided b₁ =
      (.ok saved, b') := by
    rw [saveVariant_eq, hparent, run_bind_ok hmade, hstored]
  unfold Campaign.keepSource
  rw [if_pos rfl, run_bind_ok hrendered, run_bind_ok hsaved]
  exact ⟨b', rfl⟩

theorem run_test (hi : b.memory.installed = ["a", "b"]) (ha : b.asked = [])
    (hu : b.files.Unused Machine.scratchPlace) (hdirectory : directory.flaw? = none)
    (hpath : ((campaignIn directory).variantPath 0).flaw? = none)
    (hr : Reachable directory b.files) : ∃ b', ((campaignIn directory).test 0).run divided b =
      (.ok ⟨[{ record with file := ((campaignIn directory).variantPath 0).text }], false⟩, b') := by
  obtain ⟨b₁, hgenerate, ha₁, hf₁, hm₁⟩ : ∃ b₁, (campaign.tools.generate 0).run divided b =
      (.ok variant, b₁) ∧ b₁.asked = b.asked ++ [.choice 1] ∧ b₁.files = b.files ∧
      b₁.memory = b.memory := ⟨_, rfl, rfl, rfl, rfl⟩
  obtain ⟨b₂, hplan, ha₂, hf₂, hm₂⟩ : ∃ b₂, (campaign.planFor variant).run divided b₁ =
      (.ok (some plan), b₂) ∧ b₂.asked = b₁.asked ∧ b₂.files = b₁.files ∧
      b₂.memory = b₁.memory := ⟨_, rfl, rfl, rfl, rfl⟩
  have hasked : b₂.asked.length = 1 := by rw [ha₂, ha₁, ha]; rfl
  have hfiles : b₂.files = b.files := hf₂.trans hf₁
  have hunused : b₂.files.Unused Machine.scratchPlace := by rw [hfiles]; exact hu
  have hinstalled : b₂.memory.installed = ["a", "b"] := by rw [hm₂, hm₁, hi]
  obtain ⟨asked, events, hfirst, hlength⟩ := run_tryBackend (b := b₂) ⟨"a"⟩
    (by rw [hinstalled]; rfl) rfl hunused
  obtain ⟨asked', events', hsecond, -⟩ := run_tryBackend (b := { b₂ with asked, events })
    ⟨"b"⟩ (by rw [hinstalled]; rfl) rfl hunused
  dsimp only at hsecond
  rw [hasked] at hfirst
  rw [hlength, hasked] at hsecond
  rw [if_pos (by decide), called_ran] at hfirst
  rw [if_neg (by decide), called_broken] at hsecond
  have hbackends : ((campaignIn directory).tryBackends variant (some plan)).run divided b₂ =
      (.ok [ran, broken], { b₂ with asked := asked', events := events' }) := by
    have hcons : (campaignIn directory).tryBackends variant (some plan) =
        [⟨"a"⟩, ⟨"b"⟩].mapM (campaign.tryBackend variant (some plan)) := rfl
    rw [hcons, List.mapM_cons, run_bind_ok hfirst, List.mapM_cons, List.mapM_nil, run_bind,
      run_bind_ok hsecond]
    rfl
  generalize hfile : ((campaignIn directory).variantPath 0).text = file
  have hjudge : ∀ b, ((campaignIn directory).judge 0 (some plan) [ran, broken]).run divided b =
      (.ok ⟨[{ record with file }], false⟩, b) := by
    intro b
    have hlook : (looking (classify [ran, broken] file (some plan))).run divided b =
        (.ok [{ record with file }], b) := by
      rw [classify_results]
      rfl
    unfold Campaign.judge
    dsimp only
    rw [hfile, run_bind_ok hlook, classificationEvents_results]
    rfl
  obtain ⟨b', hkeep⟩ := run_keepSource (b := { b₂ with asked := asked', events := events' })
    hdirectory hpath (by rw [hfiles]; exact hr)
  refine ⟨b', ?_⟩
  have hgenerateIn : ((campaignIn directory).tools.generate 0).run divided b = (.ok variant, b₁) :=
    hgenerate
  have hpresent : ((campaignIn directory).present variant).run divided b₁ = (.ok (), b₁) := rfl
  have hplanIn : ((campaignIn directory).planFor variant).run divided b₁ = (.ok (some plan), b₂) :=
    hplan
  rw [Campaign.test_eq, run_bind_ok hgenerateIn, run_bind_ok hpresent, run_bind_ok hplanIn,
    run_bind_ok hbackends, run_bind_ok (hjudge _)]
  have hlate : (campaignIn directory).keptLate ⟨[{ record with file }], false⟩ = true := rfl
  rw [hlate, run_bind_ok hkeep]
  rfl

structure Usable (b : Bench) : Prop where
  asked : b.asked = []
  installed : b.memory.installed = ["a", "b"]
  unused : b.files.Unused Machine.scratchPlace
  results : b.files.at? resultsPlace ≠ some .directory

def benchAlone : Bench where
  memory := { installed := ["a", "b"] }

theorem usable_benchAlone : Usable benchAlone where
  asked := rfl
  installed := rfl
  unused := List.forall_mem_nil _
  results := by decide

theorem usable_benchWithSource : Usable benchWithSource where
  asked := rfl
  installed := rfl
  unused := ready_benchWithSource.unused
  results := ready_benchWithSource.results

/-- A run whose results file can be opened makes its test, and the record names its file. -/
theorem reportedIn {results : ResultsFile} {b b₀ b₁ : Bench}
    (hopen : (ResultsFile.mk (campaignIn directory).resultsPath none 0).opened.run divided
      ((campaignIn directory).started b) = (.ok results, b₀))
    (ha : b.asked = []) (hi : b.memory.installed = ["a", "b"])
    (hu : b₀.files.Unused Machine.scratchPlace) (hdirectory : directory.flaw? = none)
    (hpath : ((campaignIn directory).variantPath 0).flaw? = none)
    (hr : Reachable directory b₀.files) {its : List Campaign.Iteration} {stats : CampaignStats}
    {ending : Campaign.Ending}
    (h : (campaignIn directory).Proceeds divided 0 none b its stats ending b₁) :
    ending = .spent ∧ ∃ it, its = [it] ∧ it.index = 0 ∧ it.before = b₀ ∧ it.outcome =
      .ok ⟨[{ record with file := ((campaignIn directory).variantPath 0).text }], false⟩ := by
  cases h with
  | unopened h =>
    rw [hopen] at h
    cases h
  | @opened results' b₀' b₁ its stats ending h hits =>
    cases hopen.symm.trans h
    obtain ⟨d, place, files, events, rfl, -, ho⟩ := Campaign.run_opened_open (equippedIn directory) h
    obtain ⟨b', htest⟩ := run_test (b := { (campaignIn directory).started b with files, events })
      hi ha hu hdirectory hpath hr
    have hleft : (campaignIn directory).testsAtMost 0 = 1 := rfl
    rw [hleft] at hits
    cases hits with
    | cut hrec =>
      obtain ⟨hrun, -⟩ := ho.cut (equippedIn directory) hrec
      cases htest.symm.trans hrun
    | due hrec hstats ht => cases ht
    | next hrec hstats ht hrest =>
      obtain ⟨tested, files', hrun, -⟩ := ho.done (equippedIn directory) hrec
      cases htest.symm.trans hrun
      cases hrest
      exact ⟨rfl, _, rfl, rfl, rfl, rfl⟩

theorem reported (hb : Usable b) {its : List Campaign.Iteration} {stats : CampaignStats}
    {ending : Campaign.Ending} {b₁ : Bench}
    (h : campaign.Proceeds divided 0 none b its stats ending b₁) :
    ending = .spent ∧ ∃ it, its = [it] ∧ it.index = 0 ∧ it.outcome = .ok ⟨[record], false⟩ ∧
      (it.before.files = b.files ∨
        it.before.files = b.files.put resultsPlace (.file .empty)) := by
  obtain ⟨r, files, events, hopen, -, hfiles⟩ := run_opened (o := divided)
    (b := campaign.started b) hb.results
  have hunused : files.Unused Machine.scratchPlace := by
    rcases hfiles with rfl | rfl
    · exact hb.unused
    · exact hb.unused.put (by decide)
  have hpath : (campaignIn ⟨"", []⟩).variantPath 0 = sourcePath := by decide
  have hreachable : Reachable ⟨"", []⟩ files :=
    ⟨rfl, sourcePlace, by rw [hpath]; exact locate_source files⟩
  obtain ⟨hending, it, hits, hindex, hbefore, houtcome⟩ := reportedIn hopen hb.asked
    hb.installed hunused (by decide) (by rw [hpath]; decide) hreachable h
  rw [hpath] at houtcome
  exact ⟨hending, it, hits, hindex, houtcome, by rw [hbefore]; exact hfiles⟩

theorem runs_reported (hb : Usable b) {its : List Campaign.Iteration}
    {r : Except Fault Campaign.CampaignEnd} {b' : Bench} (h : campaign.Runs divided 0 b its r b') :
    (∃ e, r = .ok e) ∧ ∃ it, its = [it] ∧ it.index = 0 ∧ it.outcome = .ok ⟨[record], false⟩ ∧
      (it.before.files = b.files ∨
        it.before.files = b.files.put resultsPlace (.file .empty)) := by
  cases h with
  | refused hd => cases hd
  | made hd h hlast =>
    cases hd
    exact ⟨⟨_, rfl⟩, (reported hb h).2⟩

end Sample

end BackendFuzz
