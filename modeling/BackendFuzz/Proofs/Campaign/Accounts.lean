import BackendFuzz.Proofs.Campaign.Iterations
import BackendFuzz.Proofs.Number.Overflow

/-!
# Accounts of a campaign

However a campaign ends, its counters, the lines that it prints and its results
file agree on the tests that were made to their end and on their records. The
summary comes last, whatever cut the tests short. Only a campaign whose time limit
is too long for a deadline does not begin, and has no summary.
-/

namespace BackendFuzz

open Session

/-! ## Time limits -/

namespace CampaignConfig

def deadline (config : CampaignConfig) (start : Binary64) : Option Binary64 :=
  config.timeLimitMs.map fun ms => start.add (Binary64.ofRatio (ms < 0) ms.natAbs 1000)

/-- The time limit has more seconds than a finite number can tell. -/
def Overlong (config : CampaignConfig) : Prop :=
  ∃ ms, config.timeLimitMs = some ms ∧ Binary64.overflowBound * 1000 ≤ ms.natAbs

theorem deadlineFrom_of_overlong {config : CampaignConfig} (h : config.Overlong)
    (start : Binary64) : Campaign.deadlineFrom start config.timeLimitMs =
      .error (.overflow "integer division result too large for a float") := by
  obtain ⟨ms, hms, hle⟩ := h
  obtain ⟨s, hinfinite⟩ := (Binary64.ofRatio_infinite_iff (ms < 0) (by decide)).mpr hle
  rw [hms, Campaign.deadlineFrom, hinfinite]

theorem deadlineFrom_of_not_overlong {config : CampaignConfig} (h : ¬ config.Overlong)
    (start : Binary64) : Campaign.deadlineFrom start config.timeLimitMs =
      .ok (config.deadline start) := by
  unfold deadline
  cases hms : config.timeLimitMs with
  | none => rfl
  | some ms =>
    unfold Campaign.deadlineFrom
    dsimp only
    split
    · rename_i s hinfinite
      exact absurd ⟨ms, hms, (Binary64.ofRatio_infinite_iff _ (by decide)).mp ⟨s, hinfinite⟩⟩ h
    · rfl

end CampaignConfig

/-! ## Counters -/

namespace CampaignStats

theorem lookup_countTag (tag other : String) (l : List (String × Nat)) :
    (countTag tag l).lookup other =
      if other = tag then some ((l.lookup tag).getD 0 + 1) else l.lookup other := by
  induction l with
  | nil =>
    by_cases h : other = tag
    · simp [countTag, h]
    · simp [countTag, h, List.lookup_cons, beq_false_of_ne h]
  | cons entry l ih =>
    obtain ⟨t, n⟩ := entry
    unfold countTag
    by_cases ht : t = tag
    · subst ht
      by_cases h : other = t
      · simp [h]
      · simp [h, List.lookup_cons, beq_false_of_ne h]
    · rw [if_neg ht]
      by_cases h : other = t
      · subst h
        simp [ht]
      · have htag : (tag == t) = false := beq_false_of_ne (Ne.symm ht)
        simp only [List.lookup_cons, beq_false_of_ne h, htag, ih]

theorem keys_countTag (tag : String) (l : List (String × Nat)) :
    (countTag tag l).map Prod.fst =
      if tag ∈ l.map Prod.fst then l.map Prod.fst else l.map Prod.fst ++ [tag] := by
  induction l with
  | nil => rfl
  | cons entry l ih =>
    obtain ⟨t, n⟩ := entry
    unfold countTag
    by_cases ht : t = tag
    · simp [ht]
    · have hkeys : tag ∈ t :: l.map Prod.fst ↔ tag ∈ l.map Prod.fst :=
        List.mem_cons.trans (or_iff_right (Ne.symm ht))
      rw [if_neg ht]
      simp only [List.map_cons, ih, hkeys]
      split <;> rfl

/-- The counters of failures are those of some categories; a tag without a failure has no counter. -/
structure Counts (s : CampaignStats) (categories : List DivergenceCategory) : Prop where
  compilation : s.compilation = categories.countP (·.isCompilation)
  fuzzing : s.fuzzing = categories.countP (!·.isCompilation)
  byTag : ∀ tag, s.byTag.lookup tag =
    if categories.countP (·.tag == tag) = 0 then none
    else some (categories.countP (·.tag == tag))
  distinct : (s.byTag.map Prod.fst).Nodup

variable {s : CampaignStats} {categories : List DivergenceCategory}

theorem counts_nil {tests skipped : Nat} {late : Bool} :
    Counts ⟨tests, 0, 0, skipped, late, []⟩ [] :=
  ⟨rfl, rfl, fun _ => rfl, List.nodup_nil⟩

theorem Counts.congr (h : s.Counts categories) {s' : CampaignStats}
    (hc : s'.compilation = s.compilation) (hf : s'.fuzzing = s.fuzzing) (ht : s'.byTag = s.byTag) :
    s'.Counts categories :=
  ⟨hc.trans h.compilation, hf.trans h.fuzzing, by rw [ht]; exact h.byTag,
    by rw [ht]; exact h.distinct⟩

theorem Counts.add (h : s.Counts categories) (c : DivergenceCategory) :
    (s.addCategory c).Counts (categories ++ [c]) := by
  have hbyTag : (s.addCategory c).byTag = countTag c.tag s.byTag := by
    unfold addCategory
    dsimp only
    split <;> rfl
  have hcounters : (s.addCategory c).compilation = s.compilation + (if c.isCompilation then 1 else 0) ∧
      (s.addCategory c).fuzzing = s.fuzzing + (if c.isCompilation then 0 else 1) := by
    unfold addCategory
    dsimp only
    cases c.isCompilation <;> exact ⟨rfl, rfl⟩
  refine ⟨?_, ?_, fun tag => ?_, ?_⟩
  · rw [hcounters.1, h.compilation, List.countP_append, List.countP_singleton]
  · rw [hcounters.2, h.fuzzing, List.countP_append, List.countP_singleton]
    cases c.isCompilation <;> rfl
  · rw [hbyTag, lookup_countTag, List.countP_append, List.countP_singleton]
    by_cases htag : tag = c.tag
    · subst htag
      rw [h.byTag]
      by_cases hzero : categories.countP (·.tag == c.tag) = 0
      · rw [if_pos hzero, hzero]
        simp
      · rw [if_neg hzero]
        simp
    · have hne : (c.tag == tag) = false := beq_false_of_ne (Ne.symm htag)
      rw [if_neg htag, h.byTag, hne]
      rfl
  · rw [hbyTag, keys_countTag]
    split
    · exact h.distinct
    · rename_i hfresh
      exact List.nodup_append.mpr ⟨h.distinct, List.nodup_singleton _,
        fun a ha b hb heq => hfresh (List.mem_singleton.mp hb ▸ heq ▸ ha)⟩

theorem Counts.addAll (h : s.Counts categories) (more : List DivergenceCategory) :
    (more.foldl addCategory s).Counts (categories ++ more) := by
  induction more generalizing s categories with
  | nil => rwa [List.append_nil]
  | cons c more ih =>
    have hall := ih (h.add c)
    rwa [List.append_assoc] at hall

theorem addCategory_skipped (s : CampaignStats) (c : DivergenceCategory) :
    (s.addCategory c).skipped = s.skipped := by
  unfold addCategory
  dsimp only
  split <;> rfl

theorem foldl_addCategory_skipped (categories : List DivergenceCategory) (s : CampaignStats) :
    (categories.foldl addCategory s).skipped = s.skipped := by
  induction categories generalizing s with
  | nil => rfl
  | cons c categories ih => rw [List.foldl_cons, ih, addCategory_skipped]

end CampaignStats

namespace Campaign

structure Tally (stats : CampaignStats) (done : List TestReport) : Prop where
  tests : stats.tests = done.length
  skipped : stats.skipped = done.countP (·.skipped)
  counts : stats.Counts ((done.flatMap (·.records)).map (·.category))

theorem tally_nil : Tally {} [] := ⟨rfl, rfl, CampaignStats.counts_nil⟩

theorem Tally.timeUp {stats : CampaignStats} {done : List TestReport} (h : Tally stats done) :
    Tally { stats with timeLimitReached := true } done :=
  ⟨h.tests, h.skipped, h.counts.congr rfl rfl rfl⟩

theorem Tally.count {stats : CampaignStats} {done : List TestReport} (h : Tally stats done)
    (report : TestReport) : Tally (countTest stats report) (done ++ [report]) := by
  have hrecorded : (stats.record report.records).Counts
      (((done ++ [report]).flatMap (·.records)).map (·.category)) := by
    rw [List.flatMap_append, List.flatMap_singleton, List.map_append]
    have hbefore : ({ stats with tests := stats.tests + 1 } : CampaignStats).Counts
        ((done.flatMap (·.records)).map (·.category)) := h.counts.congr rfl rfl rfl
    exact hbefore.addAll _
  have hskipped : (stats.record report.records).skipped = stats.skipped :=
    CampaignStats.foldl_addCategory_skipped _ _
  refine ⟨?_, ?_, ?_⟩
  · rw [countTest_tests, h.tests, List.length_append, List.length_singleton]
  · rw [List.countP_append, List.countP_singleton, ← h.skipped]
    unfold countTest
    dsimp only
    split
    · exact congrArg (· + 1) hskipped
    · exact hskipped
  · unfold countTest
    dsimp only
    split
    · exact hrecorded.congr rfl rfl rfl
    · exact hrecorded

theorem Iterates.tally {c : Campaign} {o : Outside} {deadline : Option Binary64} {left index : Nat}
    {results : ResultsFile} {stats stats' : CampaignStats} {b b' : Bench} {its : List Iteration}
    {ending : Ending} (h : c.Iterates o deadline left index results stats b its stats' ending b')
    {done : List TestReport} (ht : Tally stats done) : Tally stats' (done ++ reports its) := by
  induction h generalizing done with
  | spent => rwa [reports, List.filterMap_nil, List.append_nil]
  | cut h => simpa [reports, Except.toOption] using ht
  | @due left index results results' stats stats₁ b b₁ b₂ report h hstats hdue =>
    subst hstats
    exact (ht.count report).timeUp
  | @next left index results results' stats stats₁ stats₂ b b₁ b₂ b' report its ending h hstats hdue
      hrest ih =>
    subst hstats
    have hall := ih (ht.count report)
    rwa [List.append_assoc] at hall

theorem Proceeds.tally {c : Campaign} {o : Outside} {budget : Nat} {deadline : Option Binary64}
    {stats : CampaignStats} {b b' : Bench} {its : List Iteration} {ending : Ending}
    (h : c.Proceeds o budget deadline b its stats ending b') : Tally stats (reports its) := by
  cases h with
  | unopened h => exact tally_nil
  | opened h hits => exact hits.tally tally_nil

end Campaign

/-! ## Lines of a session -/

def Bench.Silent (b b' : Bench) : Prop := b'.printed = b.printed

instance : IsPreorder Bench Bench.Silent where
  refl _ := rfl
  trans _ _ _ h h' := h'.trans h

namespace Session

variable {α β : Type} {P : List String → Prop}

def Prints (P : List String → Prop) (s : Session α) : Prop :=
  ∀ o b, ∃ lines, (s.run o b).2.printed = b.printed ++ lines ∧ P lines

theorem prints_of_silent {s : Session α} (h : s.Leaves Bench.Silent) (hP : P []) : s.Prints P :=
  fun o b => ⟨[], by rw [h o b, List.append_nil], hP⟩

theorem prints_silent_bind {x : Session α} {f : α → Session β} (hx : x.Leaves Bench.Silent)
    (hP : P []) (hf : ∀ a, (f a).Prints P) : (x >>= f).Prints P := by
  intro o b
  have hb := hx o b
  rw [run_bind]
  rcases h : x.run o b with ⟨fault | a, b'⟩
  · rw [h] at hb
    exact ⟨[], by rw [List.append_nil]; exact hb, hP⟩
  · rw [h] at hb
    obtain ⟨lines, hprinted, hlines⟩ := hf a o b'
    exact ⟨lines, hprinted.trans (by rw [hb]), hlines⟩

theorem prints_bind_silent {x : Session α} {f : α → Session β} (hx : x.Prints P)
    (hf : ∀ a, (f a).Leaves Bench.Silent) : (x >>= f).Prints P := by
  intro o b
  obtain ⟨lines, hprinted, hlines⟩ := hx o b
  refine ⟨lines, ?_, hlines⟩
  rw [run_bind]
  rcases h : x.run o b with ⟨fault | a, b'⟩
  · rw [h] at hprinted
    exact hprinted
  · rw [h] at hprinted
    exact ((hf a).of_run rfl).trans hprinted

end Session

namespace Campaign

def Shows (c : Campaign) (lines : List String) : Prop :=
  lines = [] ∨ c.config.showsSources = true ∧
    (lines = [rule] ∨ ∃ source : Json, lines = [rule, source.display])

section
variable {c : Campaign} {settings : Settings} (hc : c.Equipped settings)
include hc

theorem prints_showSource (variant : Variant) : (c.showSource variant).Prints c.Shows := by
  unfold showSource
  split
  · rename_i hshows
    intro o b
    rw [run_bind_ok (run_printLine o b rule)]
    have hrender := leaves_renderFirst hc variant (F := fun _ _ => True) o
      { b with printed := b.printed ++ [rule] }
    rcases h : (c.renderFirst variant).run o { b with printed := b.printed ++ [rule] } with
      ⟨fault | source, b'⟩
    · rw [h] at hrender
      rw [run_bind_error h]
      exact ⟨[rule], hrender.printed, Or.inr ⟨hshows, Or.inl rfl⟩⟩
    · rw [h] at hrender
      rw [run_bind_ok h]
      refine ⟨[rule, source.display], ?_, Or.inr ⟨hshows, Or.inr ⟨source, rfl⟩⟩⟩
      show b'.printed ++ [source.display] = b.printed ++ [rule, source.display]
      rw [hrender.printed, List.append_assoc]
      rfl
  · exact prints_of_silent (leaves_pure ()) (Or.inl rfl)

theorem silent_keepSource (wanted : Bool) (index : Int) (variant : Variant) :
    (c.keepSource wanted index variant).Leaves Bench.Silent := by
  have hrender : (c.renderFirst variant).Leaves Bench.Silent :=
    (leaves_renderFirst hc variant (F := fun _ _ => True)).mono fun _ _ h => h.printed
  exact leaves_keepSource_of hrender
    (fun source => (leaves_saveVariant _ source).mono fun _ _ h => h.printed) wanted

theorem prints_test (index : Int) : (c.test index).Prints c.Shows := by
  rw [test_eq]
  refine prints_silent_bind ((leaves_generate hc index (F := fun _ _ => True)).mono
    fun _ _ h => h.printed) (Or.inl rfl) fun variant => ?_
  rw [present_eq, bind_assoc]
  refine prints_bind_silent (prints_showSource hc variant) fun _ => ?_
  refine leaves_bind (silent_keepSource hc _ _ variant) fun _ => ?_
  refine leaves_bind ((leaves_planFor variant (F := fun _ _ => True)).mono
    fun _ _ h => h.printed) fun plan => ?_
  refine leaves_bind ((leaves_tryBackends hc variant plan).mono fun _ _ h => h.printed)
    fun results => ?_
  refine leaves_bind ((leaves_judge index plan results (F := fun _ _ => True)).mono
    fun _ _ h => h.printed) fun report => ?_
  exact leaves_bind (silent_keepSource hc _ index variant) fun _ => leaves_pure _

theorem prints_recordedTest (index : Int) (results : ResultsFile) :
    (c.recordedTest index results).Prints c.Shows :=
  prints_bind_silent (prints_test hc index) fun report =>
    leaves_bind ((leaves_write results report.records).mono fun _ _ h => h.printed) fun _ =>
      leaves_pure _

end

/-! ## Lines of a campaign -/

def Iteration.shown (it : Iteration) : List String :=
  it.after.printed.drop it.before.printed.length

/-- The progress after a test, from its records and those of all tests so far. -/
def countsLine (index : Int) (own all : List DivergenceRecord) : String :=
  let compilation := all.countP (·.category.isCompilation)
  let fuzzing := all.countP (!·.category.isCompilation)
  s!"Test {index}: {own.length} failures " ++ s!"(compilation: {compilation}, fuzzing: {fuzzing})"

def linesFrom (earlier : List DivergenceRecord) : List Iteration → List String
  | [] => []
  | it :: its =>
    match it.outcome with
    | .ok report =>
      it.shown ++ countsLine it.index report.records (earlier ++ report.records) ::
        linesFrom (earlier ++ report.records) its
    | .error _ => it.shown ++ linesFrom earlier its

def closing (c : Campaign) : Ending → List String
  | .timeUp => [c.limitLine]
  | _ => []

section
variable {c : Campaign} {settings : Settings} {o : Outside}

theorem Iteration.Ran.shown (hc : c.Equipped settings) {it : Iteration} (h : it.Ran c o) :
    it.after.printed = it.before.printed ++ it.shown ∧ c.Shows it.shown := by
  obtain ⟨results, r, hrun, -⟩ := h
  obtain ⟨lines, hprinted, hlines⟩ := prints_recordedTest hc it.index results o it.before
  rw [hrun] at hprinted
  have hshown : it.shown = lines := by
    rw [Iteration.shown, hprinted, List.drop_left]
  rw [hshown]
  exact ⟨hprinted, hlines⟩

theorem progressLine_eq {index : Nat} {report : TestReport} {stats : CampaignStats}
    {done : List TestReport} (h : Tally stats (done ++ [report])) :
    progressLine index report stats =
      countsLine index report.records (done.flatMap (·.records) ++ report.records) := by
  have hrecords : (done ++ [report]).flatMap (·.records) =
      done.flatMap (·.records) ++ report.records := by
    rw [List.flatMap_append, List.flatMap_singleton]
  have hcounts := h.counts
  rw [hrecords] at hcounts
  rw [progressLine, hcounts.compilation, hcounts.fuzzing, List.countP_map, List.countP_map]
  rfl

theorem Iterates.printed (hc : c.Equipped settings) {deadline : Option Binary64}
    {left index : Nat} {results : ResultsFile} {stats stats' : CampaignStats} {b b' : Bench}
    {its : List Iteration} {ending : Ending}
    (h : c.Iterates o deadline left index results stats b its stats' ending b')
    {done : List TestReport} (ht : Tally stats done) : b'.printed =
      b.printed ++ (linesFrom (done.flatMap (·.records)) its ++ c.closing ending) := by
  induction h generalizing done with
  | spent => exact (List.append_nil _).symm
  | @cut left index results stats b b' fault h =>
    have hran : Iteration.Ran c o ⟨index, b, b', .error fault⟩ := ⟨_, _, h, rfl⟩
    rw [(hran.shown hc).1]
    simp [linesFrom, closing]
  | @due left index results results' stats stats₁ b b₁ b₂ report h hstats hdue =>
    have hran : Iteration.Ran c o ⟨index, b, b₁, .ok report⟩ := ⟨_, _, h, rfl⟩
    have hshown : b₁.printed = b.printed ++ Iteration.shown _ := (hran.shown hc).1
    obtain ⟨readings, rfl⟩ := timeUp_bench hdue
    subst hstats
    rw [progressLine_eq (ht.count report)]
    simp [Bench.showing, hshown, linesFrom, closing]
  | @next left index results results' stats stats₁ stats₂ b b₁ b₂ b' report its ending h hstats hdue
      hrest ih =>
    have hran : Iteration.Ran c o ⟨index, b, b₁, .ok report⟩ := ⟨_, _, h, rfl⟩
    have hshown : b₁.printed = b.printed ++ Iteration.shown _ := (hran.shown hc).1
    obtain ⟨readings, rfl⟩ := timeUp_bench hdue
    subst hstats
    rw [ih (ht.count report), progressLine_eq (ht.count report)]
    simp [Bench.showing, hshown, linesFrom]

theorem Proceeds.printed (hc : c.Equipped settings) {budget : Nat} {deadline : Option Binary64}
    {stats : CampaignStats} {b b' : Bench} {its : List Iteration} {ending : Ending}
    (h : c.Proceeds o budget deadline b its stats ending b') :
    b'.printed = b.printed ++ (linesFrom [] its ++ c.closing ending) := by
  cases h with
  | unopened h =>
    exact ((leaves_opened _).of_run h).printed.trans (List.append_nil _).symm
  | @opened results b₁ b' its stats ending h hits =>
    rw [hits.printed hc tally_nil, ((leaves_opened _).of_run h).printed]
    rfl

/-! ## Skipped variants -/

theorem yields_tryBackends (hc : c.Equipped settings) (variant : Variant) (plan : Option CallPlan) :
    (c.tryBackends variant plan).Yields fun results =>
      results.map (·.compile.backend) = c.backends := by
  obtain ⟨user, -, hcompile⟩ := hc.compiles
  unfold tryBackends
  induction c.backends with
  | nil => exact yields_pure rfl
  | cons backend backends ih =>
    have hcompiled : (c.tools.compile variant backend).Yields fun outcome =>
        outcome.backend = backend := by
      rw [hcompile]
      exact Dispatcher.yields_compile _ variant backend
    have hbackend := yields_tryBackend hcompiled (fun _ _ _ _ _ _ _ => trivial) plan
    rw [List.mapM_cons]
    refine yields_bind_of hbackend fun result hresult =>
      yields_bind_of ih fun results hresults => yields_pure ?_
    rw [List.map_cons, hresult.1, hresults]

def Skips (c : Campaign) (o : Outside) (it : Iteration) (report : TestReport) : Prop :=
  ∃ (tested : Bench) (t : c.Made o it.index it.before tested), t.report = report ∧
    t.results.map (·.compile.backend) = c.backends ∧
    (report.skipped = true ↔ ∀ result ∈ t.results, result.compile.success = false)

theorem Iteration.Ran.skips (hc : c.Equipped settings) {it : Iteration} (h : it.Ran c o)
    {report : TestReport} (hreport : it.outcome = .ok report) : c.Skips o it report := by
  obtain ⟨tested, t, rfl⟩ := h.made hreport
  refine ⟨tested, t, rfl, yields_tryBackends hc t.variant t.plan o t.planned t.results
    (by rw [t.tries]), ?_⟩
  rw [(judge_inv t.judges).2]
  simp

/-! ## The accounts of a run -/

/-- The accounts of a campaign between two benches: counters, lines and results file are those of
the tests that were made to their end, and the summary is the last line. -/
structure Accounts (c : Campaign) (o : Outside) (its : List Iteration) (stats : CampaignStats)
    (ending : Ending) (b b' : Bench) : Prop where
  numbered : its.map (·.index) = List.range its.length
  whole : ∀ it ∈ its.dropLast, ∃ report, it.outcome = .ok report
  cut : ∀ it ∈ its, ∀ fault, it.outcome = .error fault → ending = .faulted fault
  tests : stats.tests = (reports its).length
  compilation : stats.compilation = (records its).countP (·.category.isCompilation)
  fuzzing : stats.fuzzing = (records its).countP (!·.category.isCompilation)
  byTag : ∀ tag, stats.byTag.lookup tag =
    if (records its).countP (·.category.tag == tag) = 0 then none
    else some ((records its).countP (·.category.tag == tag))
  distinct : (stats.byTag.map Prod.fst).Nodup
  skipped : stats.skipped = (reports its).countP (·.skipped)
  skips : ∀ it ∈ its, ∀ report, it.outcome = .ok report → c.Skips o it report
  shown : ∀ it ∈ its, c.Shows it.shown
  printed : b'.printed = b.printed ++ (linesFrom [] its ++ c.closing ending) ++ [stats.summary]
  written : (its = [] ∧ ∃ fault, ending = .faulted fault) ∨ ∃ place,
    b'.files.locate c.resultsPath = .ok place ∧ b'.files.at? place =
      some (.file (b.files.contentAt place ++ (linesOf (records its)).toUTF8))

theorem run_concluded {start : Binary64} {stats : CampaignStats} {b : Bench}
    (h : (((o.clock b.readings).sub start).mul (Binary64.ofInt 1000)).round?.isSome) :
    ∃ events, (conclude start stats).run o b = (.ok (), { b with
      readings := b.readings + 1, events, printed := b.printed ++ [stats.summary] }) := by
  obtain ⟨durationMs, hduration⟩ := Option.isSome_iff_exists.mp h
  unfold conclude
  rw [run_bind_ok (run_readClock o b)]
  dsimp only
  rw [hduration]
  exact ⟨_, rfl⟩

theorem Proceeds.accounts (hc : c.Equipped settings) {budget : Nat} {deadline : Option Binary64}
    {its : List Iteration} {stats : CampaignStats} {ending : Ending} {b b₁ b' : Bench}
    (h : c.Proceeds o budget deadline b its stats ending b₁) (hfiles : b'.files = b₁.files)
    (hprinted : b'.printed = b₁.printed ++ [stats.summary]) :
    c.Accounts o its stats ending b b' := by
  have htally := h.tally
  have hcounts := htally.counts
  have hran := h.ran
  refine
    { numbered := h.numbered
      whole := h.cut_last.1
      cut := h.cut_last.2
      tests := htally.tests
      compilation := by rw [hcounts.compilation, List.countP_map]; rfl
      fuzzing := by rw [hcounts.fuzzing, List.countP_map]; rfl
      byTag := fun tag => by rw [hcounts.byTag, List.countP_map]; rfl
      distinct := hcounts.distinct
      skipped := htally.skipped
      skips := fun it hit report hreport => (hran it hit).skips hc hreport
      shown := fun it hit => ((hran it hit).shown hc).2
      printed := by rw [hprinted, h.printed hc]
      written := ?_ }
  rw [hfiles]
  rcases h.written hc with ⟨hits, -, hfault⟩ | ⟨d, place, results, ho⟩
  · exact Or.inl ⟨hits, hfault⟩
  · exact Or.inr ⟨place, ho.located, ho.holds⟩

/-- A campaign begins unless its time limit is too long for a deadline; one that is ends with just
that fault. However a campaign that began ends, its accounts are right, and whatever cut it short is
given only after the summary. -/
theorem accounts_of_every_end (hc : c.Equipped settings) (budget : Nat) (b : Bench)
    (hclock : ∀ n, (((o.clock n).sub (o.clock b.readings)).mul
      (Binary64.ofInt 1000)).round?.isSome) :
    (c.config.Overlong → (c.run budget).run o b =
      (.error (.overflow "integer division result too large for a float"),
        { b with readings := b.readings + 1 })) ∧
    (¬ c.config.Overlong → ∃ its stats ending b₁ b',
      c.Proceeds o budget (c.config.deadline (o.clock b.readings)) b its stats ending b₁ ∧
      (c.run budget).run o b = (.ok (c.endOf stats ending (.ok ())), b') ∧
      c.Accounts o its stats ending b b') := by
  obtain ⟨its, r, b', hruns, hrun⟩ := run_spec c o budget b
  refine ⟨fun hlong => ?_, fun hshort => ?_⟩
  · have hdeadline := CampaignConfig.deadlineFrom_of_overlong hlong (o.clock b.readings)
    cases hruns with
    | refused hd => cases hd.symm.trans hdeadline; exact hrun
    | made hd h hlast => cases hd.symm.trans hdeadline
  · have hdeadline := CampaignConfig.deadlineFrom_of_not_overlong hshort (o.clock b.readings)
    cases hruns with
    | refused hd => cases hd.symm.trans hdeadline
    | @made deadline its stats ending b₁ b' r hd h hlast =>
      cases hd.symm.trans hdeadline
      obtain ⟨events, hconclude⟩ := @run_concluded o _ stats b₁ (hclock b₁.readings)
      cases hlast.symm.trans hconclude
      exact ⟨_, _, _, _, _, h, hrun, h.accounts hc rfl rfl⟩

end

end Campaign

theorem accounts_of_one_record : ∃ e b',
    (Sample.campaign.run 0).run Sample.divided Sample.benchAlone = (.ok e, b') ∧
    e.stats.tests = 1 ∧ e.stats.compilation = 0 ∧ e.stats.fuzzing = 1 ∧ e.stats.skipped = 0 ∧
    e.stats.byTag.lookup "fuzzing:execution-error" = some 1 ∧
    b'.printed = ["Test 0: 1 failures (compilation: 0, fuzzing: 1)", e.stats.summary] := by
  have hstill : ((Binary64.zero.sub Binary64.zero).mul (Binary64.ofInt 1000)).round?.isSome := by
    decide +kernel
  have hshort : ¬ Sample.campaign.config.Overlong := fun ⟨_, hms, _⟩ => by cases hms
  obtain ⟨its, stats, ending, b₁, b', hproceeds, hrun, haccounts⟩ :=
    (Campaign.accounts_of_every_end (o := Sample.divided) Sample.equipped 0 Sample.benchAlone
      fun _ => hstill).2 hshort
  obtain ⟨rfl, it, rfl, hindex, houtcome, -⟩ := Sample.reported Sample.usable_benchAlone hproceeds
  have hreports : Campaign.reports [it] = [⟨[Sample.record], false⟩] := by
    simp [Campaign.reports, houtcome, Except.toOption]
  have hrecords : Campaign.records [it] = [Sample.record] := by
    rw [Campaign.records, hreports]
    rfl
  refine ⟨_, b', hrun, ?_⟩
  have hshown : it.shown = [] := by
    rcases haccounts.shown it (List.mem_singleton_self it) with h | ⟨h, -⟩
    · exact h
    · cases h
  have hlines : Campaign.linesFrom [] [it] =
      ["Test 0: 1 failures (compilation: 0, fuzzing: 1)"] := by
    simp only [Campaign.linesFrom, houtcome, hshown, hindex]
    decide +kernel
  rw [Campaign.endOf_stats, haccounts.tests, haccounts.compilation, haccounts.fuzzing,
    haccounts.skipped, haccounts.byTag, hrecords, hreports, haccounts.printed, hlines]
  exact ⟨rfl, rfl, rfl, rfl, by decide +kernel, rfl⟩

end BackendFuzz
