import BackendFuzz.CommandLine.Configuration
import BackendFuzz.Proofs.Campaign.Accounts
import Mathlib.Order.Bounds.Basic

/-!
# The extent of a campaign

A campaign whose tests all come to their end makes as many of them as it takes to
meet its limit or to find the time up, whichever is first. The clock is read once
before the tests and once after each, so the number of a test is the number of
readings since the start.
-/

namespace BackendFuzz

open Session

/-! ## The clock during a test -/

def Bench.Unread (b b' : Bench) : Prop := b'.readings = b.readings

instance : IsPreorder Bench Bench.Unread where
  refl _ := rfl
  trans _ _ _ h h' := h'.trans h

theorem Bench.Left.unread {K : Request → Prop} {F : FileStore → FileStore → Prop} {b b' : Bench}
    (h : b.Left K F b') : b.Unread b' := h.readings

namespace Campaign

section
variable {c : Campaign} {settings : Settings} (hc : c.Equipped settings)
include hc

theorem unread_renderFirst (variant : Variant) : (c.renderFirst variant).Leaves Bench.Unread :=
  (leaves_renderFirst hc variant (F := fun _ _ => True)).mono fun _ _ h => h.unread

theorem unread_keepSource (wanted : Bool) (index : Int) (variant : Variant) :
    (c.keepSource wanted index variant).Leaves Bench.Unread :=
  leaves_keepSource_of (unread_renderFirst hc variant)
    (fun source => (leaves_saveVariant _ source).mono fun _ _ h => h.unread) wanted

theorem unread_present (variant : Variant) : (c.present variant).Leaves Bench.Unread := by
  rw [present_eq]
  have hprint : ∀ line, (printLine line).Leaves Bench.Unread := fun line =>
    leaves_modify fun b => refl_of Bench.Unread b
  exact leaves_bind (leaves_showSource_of (unread_renderFirst hc variant) hprint) fun _ =>
    unread_keepSource hc _ _ variant

theorem unread_test (index : Int) : (c.test index).Leaves Bench.Unread := by
  rw [test_eq]
  refine leaves_bind ((leaves_generate hc index (F := fun _ _ => True)).mono
    fun _ _ h => h.unread) fun variant => ?_
  refine leaves_bind (unread_present hc variant) fun _ => ?_
  refine leaves_bind ((leaves_planFor variant (F := fun _ _ => True)).mono
    fun _ _ h => h.unread) fun plan => ?_
  refine leaves_bind ((leaves_tryBackends hc variant plan).mono fun _ _ h => h.unread)
    fun results => ?_
  refine leaves_bind ((leaves_judge index plan results (F := fun _ _ => True)).mono
    fun _ _ h => h.unread) fun report => ?_
  exact leaves_bind (unread_keepSource hc _ index variant) fun _ => leaves_pure _

theorem unread_recordedTest (index : Int) (results : ResultsFile) :
    (c.recordedTest index results).Leaves Bench.Unread :=
  leaves_bind (unread_test hc index) fun report =>
    leaves_bind ((leaves_write results report.records).mono fun _ _ h => h.unread) fun _ =>
      leaves_pure _

end

/-! ## How far the tests get -/

theorem countTest_timeLimitReached (stats : CampaignStats) (report : TestReport) :
    (countTest stats report).timeLimitReached = stats.timeLimitReached := by
  have hadd : ∀ (categories : List DivergenceCategory) (s : CampaignStats),
      (categories.foldl CampaignStats.addCategory s).timeLimitReached = s.timeLimitReached := by
    intro categories
    induction categories with
    | nil => exact fun s => rfl
    | cons category categories ih =>
      intro s
      rw [List.foldl_cons, ih]
      unfold CampaignStats.addCategory
      dsimp only
      split <;> rfl
  have hrecord := hadd (report.records.map (·.category)) { stats with tests := stats.tests + 1 }
  unfold countTest
  dsimp only
  split <;> exact hrecord

def Whole (its : List Iteration) : Prop := ∀ it ∈ its, ∃ report, it.outcome = .ok report

theorem length_reports {its : List Iteration} (h : Whole its) :
    (reports its).length = its.length := by
  induction its with
  | nil => rfl
  | cons it its ih =>
    obtain ⟨⟨report, hreport⟩, hrest⟩ := List.forall_mem_cons.mp h
    have hcons : reports (it :: its) = report :: reports its := by
      simp [reports, hreport, Except.toOption]
    rw [hcons, List.length_cons, List.length_cons, ih hrest]

section
variable {c : Campaign} {settings : Settings} {o : Outside} {deadline : Option Binary64}

/-- Tests that all come to their end go on until none are left or the time is found up. -/
theorem Iterates.extent (hc : c.Equipped settings) {left index : Nat} {results : ResultsFile}
    {stats stats' : CampaignStats} {b b' : Bench} {its : List Iteration} {ending : Ending}
    (h : c.Iterates o deadline left index results stats b its stats' ending b') (hw : Whole its) :
    (ending = .spent ∧ its.length = left ∧ (∀ i < left, ¬ Due o deadline (b.readings + i)) ∧
        stats'.timeLimitReached = stats.timeLimitReached) ∨
      (ending = .timeUp ∧ ∃ i < left, its.length = i + 1 ∧ Due o deadline (b.readings + i) ∧
        (∀ j < i, ¬ Due o deadline (b.readings + j)) ∧ stats'.timeLimitReached = true) := by
  induction h with
  | spent => exact Or.inl ⟨rfl, rfl, fun i hi => absurd hi (Nat.not_lt_zero i), rfl⟩
  | cut h =>
    obtain ⟨report, hreport⟩ := hw _ (List.mem_singleton_self _)
    cases hreport
  | @due left index results results' stats stats₁ b b₁ b₂ report h hstats hdue =>
    obtain ⟨due, readings, hrun, hiff, -⟩ := run_timeUp o deadline
      (b₁.showing (progressLine index report stats₁))
    cases hdue.symm.trans hrun
    have hreadings : b₁.readings = b.readings := (unread_recordedTest hc index results).of_run h
    have hnow : Due o deadline b.readings := hreadings ▸ hiff.mp rfl
    exact Or.inr ⟨rfl, 0, Nat.succ_pos left, rfl, hnow, fun j hj => absurd hj (Nat.not_lt_zero j),
      rfl⟩
  | @next left index results results' stats stats₁ stats₂ b b₁ b₂ b' report its ending h hstats hdue
      hrest ih =>
    obtain ⟨due, readings, hrun, hiff, hshift⟩ := run_timeUp o deadline
      (b₁.showing (progressLine index report stats₁))
    cases hdue.symm.trans hrun
    have hreadings : b₁.readings = b.readings := (unread_recordedTest hc index results).of_run h
    have hnot : ¬ Due o deadline b.readings := fun hnow => by
      cases hiff.mpr (hreadings.symm ▸ hnow)
    have hlater : ∀ i, Due o deadline (readings + i) ↔ Due o deadline (b.readings + (i + 1)) :=
      fun i => hreadings ▸ hshift i
    have hlimit : stats₁.timeLimitReached = stats.timeLimitReached := by
      rw [hstats, countTest_timeLimitReached]
    -- The first reading is not due, so a due one of the rest comes one later.
    have hearly : ∀ n, (∀ i < n, ¬ Due o deadline (readings + i)) →
        ∀ i < n + 1, ¬ Due o deadline (b.readings + i) := by
      intro n hn i hi
      cases i with
      | zero => exact hnot
      | succ i => exact fun hd => hn i (Nat.lt_of_succ_lt_succ hi) ((hlater i).mpr hd)
    rcases ih (List.forall_mem_cons.mp hw).2 with
      ⟨hending, hlength, hnone, hreached⟩ | ⟨hending, i, hi, hlength, hdue', hnone, hreached⟩
    · exact Or.inl ⟨hending, by rw [List.length_cons, hlength], hearly left hnone,
        hreached.trans hlimit⟩
    · exact Or.inr ⟨hending, i + 1, Nat.succ_lt_succ hi, by rw [List.length_cons, hlength],
        (hlater i).mp hdue', hearly i hnone, hreached⟩

/-! ## How far a run gets -/

/-- A campaign may not go on after `k` tests: there are to be no more of them, or the clock is due
at the `k`-th reading since the first one. -/
def Stops (c : Campaign) (o : Outside) (deadline : Option Binary64) (first k : Nat) : Prop :=
  1 ≤ k ∧ (c.config.testLimit = some (k : Int) ∨ Due o deadline (first + k))

/-- From some budget on, a larger one changes nothing. -/
def Terminates (c : Campaign) (o : Outside) (b : Bench) : Prop :=
  ∃ enough, ∀ budget, enough ≤ budget → (c.run budget).run o b = (c.run enough).run o b

structure Undisturbed (c : Campaign) (o : Outside) (b : Bench) : Prop where
  opens : ∃ results b',
    (ResultsFile.mk c.resultsPath none 0).opened.run o (c.started b) = (.ok results, b')
  whole : ∀ budget its r b', c.Runs o budget b its r b' → Whole its

/-- A run of so many tests: they are what its counters say, and its lines tell whether the time was
up at the last of them. Only a clock that cannot be told keeps the summary back. -/
structure Extent (c : Campaign) (o : Outside) (deadline : Option Binary64) (b b' : Bench)
    (its : List Iteration) (e : CampaignEnd) (k : Nat) : Prop where
  made : its.length = k
  tests : e.stats.tests = k
  late : e.stats.timeLimitReached = true ↔ Due o deadline (b.readings + k)
  printed : ∃ limit last, b'.printed = b.printed ++ (linesFrom [] its ++ limit) ++ last ∧
    (Due o deadline (b.readings + k) ∧ limit = [c.limitLine] ∨
      ¬ Due o deadline (b.readings + k) ∧ limit = []) ∧
    (last = [e.stats.summary] ∨ last = [] ∧ ∃ fault, e = .faulted e.stats fault)

theorem printed_conclude (start : Binary64) (stats : CampaignStats) (b : Bench) :
    ∃ last, ((conclude start stats).run o b).2.printed = b.printed ++ last ∧
      (last = [stats.summary] ∨
        last = [] ∧ ∃ fault, ((conclude start stats).run o b).1 = .error fault) := by
  unfold conclude
  rw [run_bind_ok (run_readClock o b)]
  dsimp only
  split
  · split
    · exact ⟨[], (List.append_nil _).symm, Or.inr ⟨rfl, _, rfl⟩⟩
    · exact ⟨[], (List.append_nil _).symm, Or.inr ⟨rfl, _, rfl⟩⟩
  · exact ⟨[stats.summary], rfl, Or.inl rfl⟩

theorem Proceeds.extent (hc : c.Equipped settings) {budget : Nat} {stats : CampaignStats}
    {b b₁ : Bench} {its : List Iteration} {ending : Ending}
    (h : c.Proceeds o budget deadline b its stats ending b₁)
    (hopen : ∃ results b₀, (ResultsFile.mk c.resultsPath none 0).opened.run o (c.started b) =
      (.ok results, b₀))
    (hw : Whole its) (hpos : 1 ≤ c.testsAtMost budget) :
    IsLeast {k | 1 ≤ k ∧ (k = c.testsAtMost budget ∨ Due o deadline (b.readings + k))}
        its.length ∧
      (Due o deadline (b.readings + its.length) ∧ ending = .timeUp ∧
          stats.timeLimitReached = true ∨
        ¬ Due o deadline (b.readings + its.length) ∧ ending = .spent ∧
          stats.timeLimitReached = false) := by
  cases h with
  | unopened h =>
    obtain ⟨results, b₀, hopen⟩ := hopen
    cases hopen.symm.trans h
  | @opened results b₀ b₁ its stats ending h hits =>
    -- Only the start has read the clock by then, so the first test ends at the reading after it.
    have hreadings : b₀.readings = b.readings + 1 := ((leaves_opened _).of_run h).readings
    have hshift : ∀ {n k : Nat}, (∀ i < n, ¬ Due o deadline (b₀.readings + i)) → 1 ≤ k → k ≤ n →
        ¬ Due o deadline (b.readings + k) := by
      intro n k hn hk hle
      obtain ⟨i, rfl⟩ : ∃ i, k = i + 1 := ⟨k - 1, by omega⟩
      rw [Nat.add_comm i, ← Nat.add_assoc, ← hreadings]
      exact hn i hle
    rcases hits.extent hc hw with
      ⟨hending, hlength, hnone, hreached⟩ | ⟨hending, i, hi, hlength, hdue, hnone, hreached⟩
    · rw [hlength]
      refine ⟨⟨⟨hpos, Or.inl rfl⟩, ?_⟩, Or.inr ⟨hshift hnone hpos le_rfl, hending, hreached⟩⟩
      rintro k ⟨hk, rfl | hdue⟩
      · exact le_rfl
      · exact Nat.le_of_not_le fun hle => hshift hnone hk hle hdue
    · rw [hreadings, Nat.add_assoc, Nat.add_comm 1] at hdue
      rw [hlength]
      refine ⟨⟨⟨Nat.succ_pos i, Or.inr hdue⟩, ?_⟩, Or.inl ⟨hdue, hending, hreached⟩⟩
      rintro k ⟨hk, rfl | hdue'⟩
      · exact hi
      · exact Nat.le_of_not_lt fun hlt => hshift hnone hk (Nat.le_of_lt_succ hlt) hdue'

section
variable {b : Bench}

theorem Undisturbed.extent (hc : c.Equipped settings) (hu : c.Undisturbed o b)
    (hd : deadlineFrom (o.clock b.readings) c.config.timeLimitMs = .ok deadline) {budget : Nat}
    (hpos : 1 ≤ c.testsAtMost budget) :
    ∃ its e b', c.Runs o budget b its (.ok e) b' ∧ (c.run budget).run o b = (.ok e, b') ∧
      c.Extent o deadline b b' its e its.length ∧
      IsLeast {k | 1 ≤ k ∧ (k = c.testsAtMost budget ∨ Due o deadline (b.readings + k))}
        its.length := by
  obtain ⟨its, r, b', hruns, hrun⟩ := run_spec c o budget b
  have hw : Whole its := hu.whole budget its r b' hruns
  cases hruns with
  | refused hd' => cases hd.symm.trans hd'
  | @made deadline' its stats ending b₁ b' r hd' h hlast =>
    cases hd.symm.trans hd'
    have hmade : stats.tests = its.length := by rw [h.tally.tests, length_reports hw]
    obtain ⟨last, hprinted, hsummary⟩ := printed_conclude (o := o) (o.clock b.readings) stats b₁
    rw [hlast, h.printed hc] at hprinted
    rw [hlast] at hsummary
    have hlastLine : last = [stats.summary] ∨
        last = [] ∧ ∃ fault, c.endOf stats ending r = .faulted stats fault := by
      rcases hsummary with hs | ⟨hs, fault, rfl⟩
      · exact Or.inl hs
      · exact Or.inr ⟨hs, fault, by cases ending <;> rfl⟩
    obtain ⟨hleast, hclosed⟩ := h.extent hc hu.opens hw hpos
    refine ⟨its, _, b', .made hd h hlast, hrun, ?_, hleast⟩
    refine ⟨rfl, by rw [endOf_stats, hmade], ?_, c.closing ending, last, hprinted, ?_,
      by rwa [endOf_stats]⟩
    · rw [endOf_stats]
      rcases hclosed with ⟨hdue, -, hreached⟩ | ⟨hdue, -, hreached⟩
      · exact iff_of_true hreached hdue
      · exact iff_of_false (by rw [hreached]; decide) hdue
    · rcases hclosed with ⟨hdue, rfl, -⟩ | ⟨hdue, rfl, -⟩
      · exact Or.inl ⟨hdue, rfl⟩
      · exact Or.inr ⟨hdue, rfl⟩

/-- A campaign of a positive number of tests, or with a time limit instead of a number. -/
theorem testLimit_cases (hcount : ∀ n, c.config.testCount = some n → 1 ≤ n) :
    (∃ n : Nat, 1 ≤ n ∧ c.config.testLimit = some (n : Int) ∧ ∀ budget, c.testsAtMost budget = n) ∨
      c.config.testLimit = none ∧ ∀ budget, c.testsAtMost budget = budget := by
  unfold testsAtMost
  cases hlimit : c.config.testLimit with
  | none => exact Or.inr ⟨rfl, fun _ => rfl⟩
  | some n =>
    have hpos : 1 ≤ n := by
      unfold CampaignConfig.testLimit at hlimit
      split at hlimit
      · cases hlimit
        exact hcount n ‹_›
      · split at hlimit <;> cases hlimit
        exact le_rfl
    exact Or.inl ⟨n.toNat, by omega, by rw [Int.toNat_of_nonneg (by omega)], fun _ => rfl⟩

theorem one_le_testsAtMost (hcount : ∀ n, c.config.testCount = some n → 1 ≤ n) {budget : Nat}
    (hbudget : 1 ≤ budget) : 1 ≤ c.testsAtMost budget := by
  rcases testLimit_cases hcount with ⟨limit, hpos, -, hatMost⟩ | ⟨-, hatMost⟩
  · rw [hatMost]
    exact hpos
  · rw [hatMost]
    exact hbudget

section
variable {first n budget : Nat} (hcount : ∀ n, c.config.testCount = some n → 1 ≤ n)
  (hn : IsLeast {k | 1 ≤ k ∧ (k = c.testsAtMost budget ∨ Due o deadline (first + k))} n)
include hcount hn

theorem eq_of_stops {k : Nat} (hk : IsLeast {k | c.Stops o deadline first k} k)
    (hbudget : k ≤ budget) : n = k := by
  obtain ⟨⟨hpos, hstop⟩, hleast⟩ := hk
  obtain ⟨⟨hnpos, hend⟩, hnleast⟩ := hn
  rcases testLimit_cases hcount with ⟨limit, -, hlimit, hatMost⟩ | ⟨hlimit, hatMost⟩
  · rw [hatMost] at hend
    refine le_antisymm (hnleast ⟨hpos, ?_⟩) (hleast ⟨hnpos, ?_⟩)
    · rw [hatMost]
      exact hstop.imp_left fun h => Int.ofNat.inj (Option.some.inj (h.symm.trans hlimit))
    · exact hend.imp_left fun h => by rw [h, hlimit]
  · rw [hatMost] at hend
    have hdue := hstop.resolve_left (by rw [hlimit]; simp)
    refine le_antisymm (hnleast ⟨hpos, Or.inr hdue⟩) ?_
    rcases hend with rfl | hdue'
    · exact hbudget
    · exact hleast ⟨hnpos, Or.inr hdue'⟩

theorem eq_of_not_stops (hnone : ∀ k, ¬ c.Stops o deadline first k) : n = budget := by
  obtain ⟨⟨hnpos, hend⟩, -⟩ := hn
  have hend := hend.resolve_right fun hdue => hnone n ⟨hnpos, Or.inr hdue⟩
  rcases testLimit_cases hcount with ⟨limit, hpos, hlimit, -⟩ | ⟨-, hatMost⟩
  · exact absurd ⟨hpos, Or.inl hlimit⟩ (hnone limit)
  · rw [hend, hatMost]

end

end

end

end Campaign

/-! ## Limits of a configuration -/

namespace CampaignConfig

theorem testLimit_or_timeLimit (config : CampaignConfig) :
    config.testLimit.isSome ∨ config.timeLimitMs.isSome := by
  unfold testLimit
  cases config.testCount with
  | some n => exact Or.inl rfl
  | none =>
    cases config.timeLimitMs with
    | some ms => exact Or.inr rfl
    | none => exact Or.inl rfl

end CampaignConfig

theorem testCount_of_configure {a : Arguments} {version : String} {config : CampaignConfig}
    (h : configure a version = .ok config) : ∀ n, config.testCount = some n → 1 ≤ n :=
  (accepted_of_configure h).testCount

namespace Campaign

section
variable {c : Campaign} {settings : Settings} {o : Outside} {b : Bench}

section
variable (hc : c.Equipped settings) (hcount : ∀ n, c.config.testCount = some n → 1 ≤ n)
  (hu : c.Undisturbed o b) {deadline : Option Binary64}
  (hd : deadlineFrom (o.clock b.readings) c.config.timeLimitMs = .ok deadline)
include hc hcount hu hd

theorem reaches_stop {k budget : Nat} (hk : IsLeast {k | c.Stops o deadline b.readings k} k)
    (hbudget : k ≤ budget) : ∃ its e b', c.Runs o budget b its (.ok e) b' ∧
      (c.run budget).run o b = (.ok e, b') ∧ c.Extent o deadline b b' its e k := by
  have hpos := one_le_testsAtMost hcount (le_trans hk.1.1 hbudget)
  obtain ⟨its, e, b', hruns, hrun, hextent, hleast⟩ := hu.extent hc hd hpos
  rw [eq_of_stops hcount hleast hk hbudget] at hextent
  exact ⟨its, e, b', hruns, hrun, hextent⟩

theorem uses_up_budget (hnone : ∀ k, ¬ c.Stops o deadline b.readings k) {budget : Nat}
    (hbudget : 1 ≤ budget) : ∃ its e b', c.Runs o budget b its (.ok e) b' ∧
      (c.run budget).run o b = (.ok e, b') ∧ c.Extent o deadline b b' its e budget := by
  have hpos := one_le_testsAtMost hcount hbudget
  obtain ⟨its, e, b', hruns, hrun, hextent, hleast⟩ := hu.extent hc hd hpos
  rw [eq_of_not_stops hcount hleast hnone] at hextent
  exact ⟨its, e, b', hruns, hrun, hextent⟩

theorem terminates_iff : c.Terminates o b ↔ ∃ k, c.Stops o deadline b.readings k := by
  classical
  constructor
  · rintro ⟨enough, hsame⟩
    by_contra hnone
    have hnone : ∀ k, ¬ c.Stops o deadline b.readings k := fun k hk => hnone ⟨k, hk⟩
    -- Two budgets above the one that is enough make different numbers of tests.
    obtain ⟨its, e, b', -, hrun, hextent⟩ := uses_up_budget hc hcount hu hd hnone
      (Nat.succ_pos enough)
    obtain ⟨its', e', b'', -, hrun', hextent'⟩ := uses_up_budget hc hcount hu hd hnone
      (Nat.succ_pos (enough + 1))
    rw [hsame _ (by omega), ← hsame (enough + 1) (by omega), hrun] at hrun'
    cases hrun'
    have := hextent.tests.symm.trans hextent'.tests
    omega
  · rintro hstops
    have hleast : IsLeast {k | c.Stops o deadline b.readings k} (Nat.find hstops) :=
      ⟨Nat.find_spec hstops, fun k hk => Nat.find_min' hstops hk⟩
    refine ⟨Nat.find hstops, fun budget hbudget => ?_⟩
    obtain ⟨its, e, b', hruns, hrun, hextent⟩ := reaches_stop hc hcount hu hd hleast hbudget
    obtain ⟨its', e', b'', hruns', hrun', hextent'⟩ := reaches_stop hc hcount hu hd hleast le_rfl
    obtain ⟨he, hb⟩ := hruns.unique hruns' (.inr (hextent.made.trans hextent'.made.symm))
    rw [hrun, hrun', he, hb]

end

/-- An undisturbed campaign ends exactly if it stops somewhere: after its number of tests, or where
the clock is due. It makes just as many tests as that takes, and says that the time is up exactly if
it is. A time limit that no finite number of seconds can tell keeps it from making any. -/
theorem run_stops_at_first_bound (hc : c.Equipped settings)
    (hcount : ∀ n, c.config.testCount = some n → 1 ≤ n) (hu : c.Undisturbed o b) :
    (c.config.Overlong → ∀ budget, (c.run budget).run o b =
      (.error (.overflow "integer division result too large for a float"),
        { b with readings := b.readings + 1 })) ∧
    (¬ c.config.Overlong →
      (c.Terminates o b ↔
        ∃ k, c.Stops o (c.config.deadline (o.clock b.readings)) b.readings k) ∧
      (∀ k, IsLeast {k | c.Stops o (c.config.deadline (o.clock b.readings)) b.readings k} k →
        ∀ budget, k ≤ budget → ∃ its e b', c.Runs o budget b its (.ok e) b' ∧
          (c.run budget).run o b = (.ok e, b') ∧
          c.Extent o (c.config.deadline (o.clock b.readings)) b b' its e k) ∧
      ((∀ k, ¬ c.Stops o (c.config.deadline (o.clock b.readings)) b.readings k) →
        ∀ budget, 1 ≤ budget → ∃ its e b', c.Runs o budget b its (.ok e) b' ∧
          (c.run budget).run o b = (.ok e, b') ∧
          c.Extent o (c.config.deadline (o.clock b.readings)) b b' its e budget)) ∧
    (c.config.testCount = none →
      c.config.testLimit = if c.config.timeLimitMs.isNone then some 1 else none) ∧
    ∀ a version config, configure a version = .ok config →
      (∀ n, config.testCount = some n → 1 ≤ n) ∧
        (config.testLimit.isSome ∨ config.timeLimitMs.isSome) := by
  refine ⟨fun hlong budget => ?_, fun hshort => ?_, fun hnone => ?_, fun a version config h =>
    ⟨testCount_of_configure h, config.testLimit_or_timeLimit⟩⟩
  · unfold run
    rw [run_bind_ok (run_readClock o b), CampaignConfig.deadlineFrom_of_overlong hlong]
    rfl
  · have hd := CampaignConfig.deadlineFrom_of_not_overlong hshort (o.clock b.readings)
    exact ⟨terminates_iff hc hcount hu hd,
      fun k hk budget hbudget => reaches_stop hc hcount hu hd hk hbudget,
      fun hnone budget hbudget => uses_up_budget hc hcount hu hd hnone hbudget⟩
  · unfold CampaignConfig.testLimit
    rw [hnone]
    cases c.config.timeLimitMs <;> rfl

end

end Campaign

/-! ## Both bounds at once -/

namespace Sample

def timed : Campaign :=
  { campaign with config := { campaign.config with timeLimitMs := some 0 } }

theorem equipped_timed : timed.Equipped {} where
  generates := equipped.generates
  compiles := equipped.compiles
  executes := equipped.executes
  results := equipped.results

theorem run_test_timed {b : Bench} (hi : b.memory.installed = ["a", "b"]) (ha : b.asked = [])
    (hu : b.files.Unused Machine.scratchPlace) :
    ∃ report b', (timed.test 0).run divided b = (.ok report, b') := by
  have hpath : (campaignIn ⟨"", []⟩).variantPath 0 = sourcePath := by decide
  have hreachable : Reachable ⟨"", []⟩ b.files :=
    ⟨rfl, sourcePlace, by rw [hpath]; exact locate_source b.files⟩
  obtain ⟨b', htest⟩ := run_test hi ha hu (by decide) (by rw [hpath]; decide) hreachable
  exact ⟨_, b', htest⟩

theorem undisturbed_timed : timed.Undisturbed divided benchAlone := by
  obtain ⟨r, files, events, hopen, -, hfiles⟩ := run_opened (o := divided)
    (b := timed.started benchAlone) usable_benchAlone.results
  have hunused : files.Unused Machine.scratchPlace := by
    rcases hfiles with rfl | rfl
    · exact usable_benchAlone.unused
    · exact usable_benchAlone.unused.put (by decide)
  refine ⟨⟨_, _, hopen⟩, fun budget its r' b' h => ?_⟩
  cases h with
  | refused hd => exact List.forall_mem_nil _
  | made hd h hlast =>
    cases h with
    | unopened h => exact List.forall_mem_nil _
    | opened h hits =>
      cases hopen.symm.trans h
      obtain ⟨d, place, files', events', hb, -, ho⟩ := Campaign.run_opened_open equipped_timed h
      cases hb
      have hleft : timed.testsAtMost budget = 1 := rfl
      rw [hleft] at hits
      cases hits with
      | cut hrec =>
        obtain ⟨report, b'', htest⟩ := @run_test_timed
          { timed.started benchAlone with files, events } rfl rfl hunused
        obtain ⟨hrun, -⟩ := ho.cut equipped_timed hrec
        cases htest.symm.trans hrun
      | due hrec => exact List.forall_mem_singleton.mpr ⟨_, rfl⟩
      | next hrec hstats ht hrest =>
        cases hrest
        exact List.forall_mem_singleton.mpr ⟨_, rfl⟩

end Sample

theorem run_stops_at_both_bounds : ∃ its e b',
    Sample.timed.Runs Sample.divided 1 Sample.benchAlone its (.ok e) b' ∧
    its.length = 1 ∧ e.stats.tests = 1 ∧ e.stats.timeLimitReached = true := by
  obtain ⟨-, hshort, -⟩ := Campaign.run_stops_at_first_bound Sample.equipped_timed
    (fun n hn => by cases hn; decide) Sample.undisturbed_timed
  have hlimit : ¬ Sample.timed.config.Overlong := by
    rintro ⟨ms, hms, hle⟩
    cases hms
    exact absurd hle (Nat.not_le_of_lt (Nat.mul_pos Binary64.overflowBound_pos (by decide)))
  obtain ⟨-, hstops, -⟩ := hshort hlimit
  have hone : IsLeast {k | Sample.timed.Stops Sample.divided
      (Sample.timed.config.deadline Binary64.zero) 0 k} 1 :=
    ⟨⟨le_rfl, Or.inl rfl⟩, fun k hk => hk.1⟩
  obtain ⟨its, e, b', hruns, -, hextent⟩ := hstops 1 hone 1 le_rfl
  refine ⟨its, e, b', hruns, hextent.made, hextent.tests, hextent.late.mpr ⟨_, rfl, ?_⟩⟩
  decide +kernel

end BackendFuzz
