import BackendFuzz.Program
import BackendFuzz.Proofs.Campaign.Failures

/-!
# The exit status

The program ends with status 0 if it has no seeds, if nothing is to do, or if its
campaign runs to its limit or deadline, and with status 1 if anything else stops
it. Only what is settled before the campaign is built can end it without a status:
settings that cannot be read, and a level that logging does not take.
-/

namespace BackendFuzz

open Session Campaign

namespace Program

/-! ## The parts of a run -/

theorem endsWith_iff_of_run {α : Type} {s : Session α} {o : Outside} {b b' : Bench}
    {r : Except Fault α} {fault : Fault} (h : s.run o b = (r, b')) :
    s.EndsWith o b fault ↔ r = .error fault := by
  constructor
  · rintro ⟨b'', h'⟩
    cases h.symm.trans h'
    rfl
  · rintro rfl
    exact ⟨b', h⟩

def prepare (arguments : Arguments) (environment : Settings.Named) :
    Session (Settings × String) := do
  let settings ← Settings.load [] environment
  let verbosity ← Session.ofExcept (compared arguments.verbose ">=")
  let level := if 1 ≤ verbosity then "DEBUG" else settings.logLevel
  let _ ← Session.ofExcept (({} : LogSetup).configure level settings.logPretty)
  return (settings, level)

def finish (logging : Option (String × Bool)) : Except Fault Unit → Session ProgramEnd
  | .ok () => return { status := 0, logging }
  | .error fault => do
    report fault
    return { status := (verdict fault).1, errors := (verdict fault).2 ++ "\n", logging }

def launch (arguments : Arguments) (budget : Nat) (prepared : Settings × String) :
    Session ProgramEnd := do
  let r ← Session.attempt (campaign arguments prepared.1 budget)
  finish (some (prepared.2, prepared.1.logPretty)) r

theorem run_eq {words : List String} {arguments : Arguments}
    (hwords : Arguments.ofWords words = .ok arguments) (environment : Settings.Named)
    (budget : Nat) : run words environment budget =
      if arguments.seeds.isEmpty then pure (stopped .help)
      else prepare arguments environment >>= launch arguments budget := by
  unfold run prepare
  rw [hwords]
  dsimp only
  split
  · rfl
  · simp only [bind_assoc, pure_bind]
    rfl

/-! ## Before the campaign -/

/-- What the program ends with before it has a status: a fault of its settings, a verbosity that is
not given, or a level of the settings, where it counts, that logging does not take. -/
inductive Escapes (arguments : Arguments) (environment : Settings.Named) (o : Outside) (b : Bench) :
    Fault → Prop
  | settings {fault : Fault} (h : (Settings.load [] environment).EndsWith o b fault) :
    Escapes arguments environment o b fault
  | verbosity {settings : Settings} {b₁ : Bench}
    (h : (Settings.load [] environment).run o b = (.ok settings, b₁))
    (hverbose : arguments.verbose = .nothing) :
    Escapes arguments environment o b (.misuse (.order ">=" "list"))
  | level {settings : Settings} {b₁ : Bench} {verbosity : Int} {fault : Fault}
    (h : (Settings.load [] environment).run o b = (.ok settings, b₁))
    (hverbose : arguments.verbose = .value verbosity) (hlow : verbosity < 1)
    (hlevel : levelNumber settings.logLevel = .error fault) :
    Escapes arguments environment o b fault

section
variable {arguments : Arguments} {environment : Settings.Named} {o : Outside} {b b₁ : Bench}
  {settings : Settings}

theorem run_compared (n : Int) (relation : String) :
    (Session.ofExcept (compared (.value n) relation)).run o b = (.ok n, b) := rfl

section
variable (h : (Settings.load [] environment).run o b = (.ok settings, b₁))
include h

theorem run_prepare_nothing (hverbose : arguments.verbose = .nothing) :
    (prepare arguments environment).run o b = (.error (.misuse (.order ">=" "list")), b₁) := by
  unfold prepare
  rw [run_bind_ok h, hverbose]
  rfl

theorem run_prepare_high {verbosity : Int} (hverbose : arguments.verbose = .value verbosity)
    (hhigh : 1 ≤ verbosity) :
    (prepare arguments environment).run o b = (.ok (settings, "DEBUG"), b₁) := by
  unfold prepare
  rw [run_bind_ok h, hverbose, run_bind_ok (run_compared verbosity _)]
  simp only [if_pos hhigh]
  rfl

theorem run_prepare_low {verbosity : Int} (hverbose : arguments.verbose = .value verbosity)
    (hlow : verbosity < 1) : (prepare arguments environment).run o b =
      ((levelNumber settings.logLevel).map fun _ => (settings, settings.logLevel), b₁) := by
  unfold prepare
  rw [run_bind_ok h, hverbose, run_bind_ok (run_compared verbosity _)]
  simp only [if_neg (Int.not_le.mpr hlow), LogSetup.configure]
  cases levelNumber settings.logLevel <;> rfl

end

theorem prepare_endsWith_iff {fault : Fault} : (prepare arguments environment).EndsWith o b fault ↔
    Escapes arguments environment o b fault := by
  constructor
  · rintro ⟨b', h⟩
    rcases hload : (Settings.load [] environment).run o b with ⟨fault' | settings, b₁⟩
    · rw [prepare, run_bind_error hload] at h
      cases h
      exact .settings ⟨_, hload⟩
    · cases hverbose : arguments.verbose with
      | nothing =>
        rw [run_prepare_nothing hload hverbose] at h
        cases h
        exact .verbosity hload hverbose
      | value verbosity =>
        by_cases hlow : verbosity < 1
        · rw [run_prepare_low hload hverbose hlow] at h
          cases hlevel : levelNumber settings.logLevel with
          | error fault' =>
            rw [hlevel] at h
            cases h
            exact .level hload hverbose hlow hlevel
          | ok n =>
            rw [hlevel] at h
            cases h
        · rw [run_prepare_high hload hverbose (Int.not_lt.mp hlow)] at h
          cases h
  · intro h
    cases h with
    | settings h =>
      obtain ⟨b', h⟩ := h
      exact ⟨b', run_bind_error h _⟩
    | verbosity hload hverbose => exact ⟨_, run_prepare_nothing hload hverbose⟩
    | level hload hverbose hlow hlevel =>
      have hprepare := run_prepare_low hload hverbose hlow
      rw [hlevel] at hprepare
      exact ⟨_, hprepare⟩

theorem load_of_prepare {level : String}
    (h : (prepare arguments environment).run o b = (.ok (settings, level), b₁)) :
    (Settings.load [] environment).run o b = (.ok settings, b₁) := by
  obtain ⟨settings', b', hload, hrest⟩ := run_bind_ok_inv h
  obtain ⟨verbosity, b₂, hverbosity, hrest⟩ := run_bind_ok_inv hrest
  obtain ⟨setup, b₃, hsetup, hrest⟩ := run_bind_ok_inv hrest
  rw [run_ofExcept] at hverbosity hsetup
  cases hrest
  obtain rfl := (Prod.ext_iff.mp hsetup).2
  obtain rfl := (Prod.ext_iff.mp hverbosity).2
  exact hload

end

/-! ## The campaign -/

def built (arguments : Arguments) (environment : Settings.Named) : Session Campaign := do
  let settings ← Settings.load [] environment
  let config ← Session.ofExcept (configure arguments settings.defaultSolcVersion)
  Campaign.build config settings

def outcome : Except Fault CampaignEnd → Except Fault Unit
  | .error fault => .error fault
  | .ok (.faulted _ fault) => .error fault
  | .ok _ => .ok ()

theorem endsRun_of_outcome {r : Except Fault CampaignEnd} {fault : Fault}
    (h : outcome r = .error fault) : EndsRun fault r := by
  cases r with
  | error fault' =>
    cases h
    exact Or.inl rfl
  | ok e =>
    cases e with
    | faulted stats fault' =>
      cases h
      exact Or.inr ⟨stats, rfl⟩
    | finished stats => cases h
    | unfinished stats => cases h

theorem outcome_endOf {c : Campaign} {stats : CampaignStats} {ending : Ending}
    (h : ∀ fault, ending ≠ .faulted fault) :
    outcome (.ok (c.endOf stats ending (.ok ()))) = .ok () := by
  cases ending with
  | faulted fault => exact absurd rfl (h fault)
  | timeUp => rfl
  | spent => cases hlimit : c.config.testLimit <;> simp [endOf, hlimit, outcome]

/-- The campaign of the arguments is built, its tests end so, and its summary is made. -/
inductive Completes (arguments : Arguments) (environment : Settings.Named) (o : Outside)
    (budget : Nat) (b : Bench) : Campaign → Ending → Prop
  | intro {c : Campaign} {b₁ b₂ : Bench} {deadline : Option Binary64} {its : List Iteration}
    {stats : CampaignStats} {ending : Ending}
    (hbuilt : (built arguments environment).run o b = (.ok c, b₁))
    (hdeadline : deadlineFrom (o.clock b₁.readings) c.config.timeLimitMs = .ok deadline)
    (htests : c.Proceeds o budget deadline b₁ its stats ending b₂)
    (hsummary : ((conclude (o.clock b₁.readings) stats).run o b₂).1 = .ok ()) :
    Completes arguments environment o budget b c ending

def RunsOut (arguments : Arguments) (environment : Settings.Named) (o : Outside) (budget : Nat)
    (b : Bench) : Prop :=
  ∃ c ending, Completes arguments environment o budget b c ending ∧
    (ending = .timeUp ∨ ending = .spent ∧ c.config.testLimit.isSome)

/-- A campaign without a number of tests makes as many as the budget allows, and its time is not up:
without a budget it would go on. -/
def UsesUp (arguments : Arguments) (environment : Settings.Named) (o : Outside) (budget : Nat)
    (b : Bench) : Prop :=
  ∃ c, Completes arguments environment o budget b c .spent ∧ c.config.testLimit = none

section
variable {arguments : Arguments} {environment : Settings.Named} {settings : Settings} {o : Outside}
  {budget : Nat} {b b₁ : Bench}

theorem runsOut_or_usesUp_iff : (RunsOut arguments environment o budget b ∨
    UsesUp arguments environment o budget b) ↔
      ∃ c ending, Completes arguments environment o budget b c ending ∧
        ∀ fault, ending ≠ .faulted fault := by
  constructor
  · rintro (⟨c, ending, h, hend⟩ | ⟨c, h, -⟩)
    · refine ⟨c, ending, h, ?_⟩
      rcases hend with rfl | ⟨rfl, -⟩ <;> simp
    · exact ⟨c, .spent, h, by simp⟩
  · rintro ⟨c, ending, h, hend⟩
    cases ending with
    | faulted fault => exact absurd rfl (hend fault)
    | timeUp => exact Or.inl ⟨c, .timeUp, h, Or.inl rfl⟩
    | spent =>
      cases hlimit : c.config.testLimit with
      | none => exact Or.inr ⟨c, h, hlimit⟩
      | some n => exact Or.inl ⟨c, .spent, h, Or.inr ⟨rfl, by rw [hlimit]; rfl⟩⟩

section
variable (hload : (Settings.load [] environment).run o b = (.ok settings, b₁))
include hload

theorem campaign_cases (budget : Nat) :
    (∃ fault b', (built arguments environment).run o b = (.error fault, b') ∧
      (campaign arguments settings budget).run o b₁ = (.error fault, b')) ∨
    ∃ c b₂ its r b', (built arguments environment).run o b = (.ok c, b₂) ∧
      c.Equipped settings ∧ c.Runs o budget b₂ its r b' ∧
      (campaign arguments settings budget).run o b₁ = (outcome r, b') := by
  unfold built campaign
  rw [run_bind_ok hload]
  cases hconfig : configure arguments settings.defaultSolcVersion with
  | error fault => exact Or.inl ⟨fault, b₁, rfl, rfl⟩
  | ok config =>
    have hconfigured := run_ofExcept o b₁ (.ok config : Except Fault CampaignConfig)
    rw [run_bind_ok hconfigured, run_bind_ok hconfigured]
    rcases hbuild : (build config settings).run o b₁ with ⟨fault | c, b₂⟩
    · exact Or.inl ⟨fault, b₂, rfl, run_bind_error hbuild _⟩
    · obtain ⟨its, r, b', hruns, hrun⟩ := run_spec c o budget b₂
      have hc := ((yields_build_equipped config settings).of_run hbuild).1
      refine Or.inr ⟨c, b₂, its, r, b', rfl, hc, hruns, ?_⟩
      rw [run_bind_ok hbuild]
      cases r with
      | error fault => exact run_bind_error hrun _
      | ok e =>
        rw [run_bind_ok hrun]
        cases e <;> rfl

theorem campaign_ok_iff : ((campaign arguments settings budget).run o b₁).1 = .ok () ↔
    RunsOut arguments environment o budget b ∨ UsesUp arguments environment o budget b := by
  rw [runsOut_or_usesUp_iff]
  rcases campaign_cases hload budget with
    ⟨fault, b', hbuilt, hrun⟩ | ⟨c, b₂, its, r, b', hbuilt, -, hruns, hrun⟩
  · rw [hrun]
    refine iff_of_false (by simp) ?_
    rintro ⟨c, ending, ⟨hbuilt', -⟩, -⟩
    cases hbuilt.symm.trans hbuilt'
  rw [hrun]
  constructor
  · intro h
    cases hruns with
    | refused hd => cases h
    | @made deadline its stats ending b₃ b' r hd hproceeds hlast =>
      cases r with
      | error fault => cases ending <;> cases h
      | ok last =>
        refine ⟨c, ending, .intro hbuilt hd hproceeds (by rw [hlast]), ?_⟩
        rintro fault rfl
        cases h
  · rintro ⟨c', ending, ⟨hbuilt', hd, hproceeds, hsummary⟩, hend⟩
    cases hbuilt.symm.trans hbuilt'
    -- The clock and the tests settle a run, so the completed one is the one at hand.
    obtain ⟨rfl, -⟩ := hruns.unique (.made hd hproceeds (Prod.ext hsummary rfl)) (.inl rfl)
    exact outcome_endOf hend

theorem campaign_nothing_iff {cause : NothingToDo} :
    ((campaign arguments settings budget).run o b₁).1 = .error (.nothingToDo cause) ↔
      (built arguments environment).EndsWith o b (.nothingToDo cause) := by
  rcases campaign_cases hload budget with
    ⟨fault, b', hbuilt, hrun⟩ | ⟨c, b₂, its, r, b', hbuilt, hc, hruns, hrun⟩
  · rw [hrun]
    constructor
    · rintro ⟨⟩
      exact ⟨b', hbuilt⟩
    · rintro ⟨b'', hbuilt'⟩
      cases hbuilt.symm.trans hbuilt'
      rfl
  -- Once the campaign is built, whatever cuts its run short is a failure.
  · refine iff_of_false ?_ ?_
    · intro h
      rw [hrun] at h
      cases hruns.fails hc (endsRun_of_outcome h)
    · rintro ⟨b'', hbuilt'⟩
      cases hbuilt.symm.trans hbuilt'

end

end

/-! ## The status -/

theorem verdict_status (fault : Fault) :
    (verdict fault).1 = if fault.isFailure then 1 else 0 := by
  cases fault <;> rfl

theorem run_report (o : Outside) (b : Bench) (fault : Fault) :
    ∃ events, (report fault).run o b = (.ok (), { b with events }) := by
  unfold report
  cases foreseen fault with
  | true => exact ⟨b.events, rfl⟩
  | false => exact ⟨_, rfl⟩

theorem run_finish (o : Outside) (b : Bench) (logging : Option (String × Bool))
    (r : Except Fault Unit) : ∃ e b', (finish logging r).run o b = (.ok e, b') ∧
      (e.status = 0 ∨ e.status = 1) ∧
      (e.status = 0 ↔ r = .ok () ∨ ∃ cause, r = .error (.nothingToDo cause)) := by
  cases r with
  | ok made => exact ⟨_, b, rfl, Or.inl rfl, by simp⟩
  | error fault =>
    obtain ⟨events, hreport⟩ := run_report o b fault
    refine ⟨_, { b with events }, run_bind_ok hreport _, ?_, ?_⟩
    · dsimp only
      rw [verdict_status]
      cases fault.isFailure <;> simp
    · dsimp only
      rw [verdict_status]
      cases fault <;> simp [Fault.isFailure]

theorem run_launch (arguments : Arguments) (budget : Nat) (level : String)
    {environment : Settings.Named} {settings : Settings} {o : Outside} {b b₁ : Bench}
    (hload : (Settings.load [] environment).run o b = (.ok settings, b₁)) : ∃ e b',
      (launch arguments budget (settings, level)).run o b₁ = (.ok e, b') ∧
      (e.status = 0 ∨ e.status = 1) ∧
      (e.status = 0 ↔ (∃ cause, (built arguments environment).EndsWith o b (.nothingToDo cause)) ∨
        RunsOut arguments environment o budget b ∨ UsesUp arguments environment o budget b) := by
  obtain ⟨e, b', hfinish, hstatus, hzero⟩ := run_finish o
    ((campaign arguments settings budget).run o b₁).2 (some (level, settings.logPretty))
    ((campaign arguments settings budget).run o b₁).1
  refine ⟨e, b', ?_, hstatus, ?_⟩
  · unfold launch
    rw [run_bind_ok (run_attempt o b₁ _)]
    exact hfinish
  · rw [hzero, campaign_ok_iff hload, or_comm]
    simp only [campaign_nothing_iff hload]

/-- The program ends without a status exactly if it has seeds and something is wrong before its
campaign is built: with settings, verbosity or level. Its status is 0 exactly if it has no seeds, if
nothing is to do for the campaign to be built, or if the campaign runs out; else it is 1. -/
theorem status_of_run {words : List String} {arguments : Arguments}
    (hwords : Arguments.ofWords words = .ok arguments) (environment : Settings.Named)
    (o : Outside) (budget : Nat) (b : Bench) :
    (∀ fault, (run words environment budget).EndsWith o b fault ↔
      arguments.seeds ≠ [] ∧ Escapes arguments environment o b fault) ∧
    ∀ e b', (run words environment budget).run o b = (.ok e, b') →
      (e.status = 0 ∨ e.status = 1) ∧
      (e.status = 0 ↔ arguments.seeds = [] ∨
        (∃ cause, (built arguments environment).EndsWith o b (.nothingToDo cause)) ∨
        RunsOut arguments environment o budget b ∨ UsesUp arguments environment o budget b) := by
  rw [run_eq hwords]
  -- Without seeds nothing is even prepared; else what is wrong there is all that escapes.
  cases hseeds : arguments.seeds with
  | nil =>
    refine ⟨fun fault => iff_of_false ?_ (by simp), fun e b' h => ?_⟩
    · rintro ⟨b', h⟩
      cases h
    · cases h
      exact ⟨Or.inl rfl, iff_of_true rfl (Or.inl rfl)⟩
  | cons seed seeds =>
    have hescapes : ∀ fault, seed :: seeds ≠ [] ∧ Escapes arguments environment o b fault ↔
        (prepare arguments environment).EndsWith o b fault := by
      intro fault
      rw [prepare_endsWith_iff, and_iff_right (List.cons_ne_nil seed seeds)]
    simp only [hescapes, List.isEmpty_cons, Bool.false_eq_true, ↓reduceIte, reduceCtorEq, false_or]
    rcases hprepare : (prepare arguments environment).run o b with ⟨fault | ⟨settings, level⟩, b₁⟩
    · have hrun := run_bind_error hprepare (launch arguments budget)
      refine ⟨fun fault' => ?_, fun e b' h => ?_⟩
      · rw [endsWith_iff_of_run hrun, endsWith_iff_of_run hprepare]
        simp
      · cases hrun.symm.trans h
    · obtain ⟨e, b', hlaunch, hstatus, hzero⟩ := run_launch arguments budget level
        (load_of_prepare hprepare)
      have hrun := (run_bind_ok hprepare (launch arguments budget)).trans hlaunch
      refine ⟨fun fault => ?_, fun e' b'' h => ?_⟩
      · rw [endsWith_iff_of_run hrun, endsWith_iff_of_run hprepare]
        simp
      · cases hrun.symm.trans h
        exact ⟨hstatus, hzero⟩

end Program

/-! ## Settings that are no text -/

namespace Sample

def benchWithBrokenSettings : Bench where
  files := ⟨[(⟨false, 0, [".env"]⟩, .file ⟨#[0xff]⟩)]⟩

theorem run_load_broken : (Settings.load [] []).run outside benchWithBrokenSettings =
    (.error (.encoding ⟨.startByte, 0xff, 0, 0⟩), benchWithBrokenSettings) := by
  have hthere : (isFile Settings.envFile).run outside benchWithBrokenSettings =
      (.ok true, benchWithBrokenSettings) := rfl
  have hflaw : Settings.envFile.flaw? = none := rfl
  have hcontent : benchWithBrokenSettings.files.read Settings.envFile = .ok ⟨#[0xff]⟩ := rfl
  have hdecode : Text.decode ⟨#[0xff]⟩ = .error ⟨.startByte, 0xff, 0, 0⟩ := by decide +kernel
  simp only [Settings.load, readTextFile, checkPath, hflaw, pure_bind, run_bind, hthere, run_get,
    hcontent, hdecode, if_true, run_throw]

end Sample

theorem broken_settings_escape : (Program.run ["c.sol"] [] 0).EndsWith Sample.outside
    Sample.benchWithBrokenSettings (.encoding ⟨.startByte, 0xff, 0, 0⟩) := by
  have hwords : Arguments.ofWords ["c.sol"] = .ok { seeds := [⟨"", ["c.sol"]⟩] } := rfl
  obtain ⟨hescapes, -⟩ := Program.status_of_run hwords [] Sample.outside 0
    Sample.benchWithBrokenSettings
  exact (hescapes _).mpr ⟨by simp, .settings ⟨_, Sample.run_load_broken⟩⟩

end BackendFuzz
