import BackendFuzz.Proofs.Campaign.Trials
import BackendFuzz.Proofs.Compiler.Selection

/-!
# Failures of the machine stay with their backend

An unhindered campaign makes all its tests, up to its limit or deadline, exactly
if no reply of the machine escapes. Every test that it makes is complete, and
its lines are in the results file.
-/

namespace BackendFuzz

open Campaign.Unhindered

/-! ## Courses -/

/-- What a campaign made: the tests made to their end, and the replies of the machine in the one
that was cut short, if any. -/
structure Course where
  done : List TestTrace
  cut : List MachineReply

namespace Course

def replies (k : Course) : List MachineReply := k.done.flatMap (·.replies) ++ k.cut

theorem replies_cons (t : TestTrace) (k : Course) :
    (⟨t :: k.done, k.cut⟩ : Course).replies = t.replies ++ k.replies := by
  simp [replies]

theorem escapes_cons {t : TestTrace} (h : ∀ reply ∈ t.replies, ¬ Machine.Escapes reply)
    (k : Course) : (∃ reply ∈ (⟨t :: k.done, k.cut⟩ : Course).replies, Machine.Escapes reply) ↔
      ∃ reply ∈ k.replies, Machine.Escapes reply := by
  simp only [replies_cons, List.mem_append]
  constructor
  · rintro ⟨reply, hmem | hmem, hesc⟩
    · exact absurd hesc (h reply hmem)
    · exact ⟨reply, hmem, hesc⟩
  · rintro ⟨reply, hmem, hesc⟩
    exact ⟨reply, Or.inr hmem, hesc⟩

def written (k : Course) (content : ByteArray) : ByteArray :=
  k.done.foldl (fun bytes t => bytes ++ t.lines) content

end Course

def Due (o : Outside) (deadline : Option Binary64) (reading : Nat) : Prop :=
  ∃ d, deadline = some d ∧ d.le (o.clock reading) = true

structure Course.Ran (c : Campaign) (settings : Settings) (o : Outside) (place : Place)
    (deadline : Option Binary64) (left index : Nat) (b b' : Bench) (k : Course) : Prop where
  asked : ∃ more, b'.asked = b.asked ++ more ∧ o.replies b.asked more = k.replies
  bounded : k.done.length ≤ left
  complete : ∀ (i : Nat) (t : TestTrace), k.done[i]? = some t → t.Complete c settings (index + i)
  written : ∀ content, b.files.at? place = some (.file content) →
    b'.files.at? place = some (.file (k.written content))
  early : ∀ i, i + 1 < k.done.length → ¬ Due o deadline (b.readings + i)
  ends : (∀ reply ∈ k.replies, ¬ Machine.Escapes reply) ↔
    k.done.length = left ∨ ∃ i, k.done.length = i + 1 ∧ Due o deadline (b.readings + i)

/-! ## Steps of a course -/

theorem addCategory_tests (s : CampaignStats) (category : DivergenceCategory) :
    (s.addCategory category).tests = s.tests := by
  unfold CampaignStats.addCategory
  dsimp only
  split <;> rfl

theorem foldl_addCategory_tests (categories : List DivergenceCategory) (s : CampaignStats) :
    (categories.foldl CampaignStats.addCategory s).tests = s.tests := by
  induction categories generalizing s with
  | nil => rfl
  | cons category categories ih => rw [List.foldl_cons, ih, addCategory_tests]

theorem countTest_tests (stats : CampaignStats) (report : Campaign.TestReport) :
    (Campaign.countTest stats report).tests = stats.tests + 1 := by
  have h : (stats.record report.records).tests = stats.tests + 1 :=
    foldl_addCategory_tests _ _
  unfold Campaign.countTest
  dsimp only
  split <;> exact h

theorem run_write {o : Outside} {place : Place} {b : Bench} {results : ResultsFile}
    (hp : results.place = some place) {content : ByteArray}
    (hf : b.files.at? place = some (.file content)) {records : List DivergenceRecord}
    {lines : ByteArray} (he : Text.encode (String.join (records.map (·.line))) = .ok lines) :
    ∃ results' files, (results.write records).run o b = (.ok results', { b with files }) ∧
      results'.place = some place ∧ files.at? place = some (.file (content ++ lines)) ∧
      (files = b.files ∨ files = b.files.appendAt place lines) := by
  have hnames : place.names ≠ [] := by
    intro h
    simp [FileStore.at?, h] at hf
  unfold ResultsFile.write
  simp only [hp]
  cases records with
  | nil =>
    have hlines : lines = ByteArray.empty := (Except.ok.inj he).symm
    exact ⟨results, b.files, rfl, hp, by rw [hf, hlines, ByteArray.append_empty], Or.inl rfl⟩
  | cons record records =>
    have henc : (Session.encoded _).run o b = (.ok lines, b) := Session.run_encoded o b he
    simp only [List.isEmpty_cons, Bool.false_eq_true, ite_false]
    rw [Session.run_bind_ok henc]
    refine ⟨_, _, rfl, rfl, ?_, Or.inr rfl⟩
    rw [FileStore.appendAt, hf]
    exact FileStore.at?_put_self _ hnames

/-- The clock is read after a test, but only if there is a deadline. -/
theorem run_timeUp (o : Outside) (deadline : Option Binary64) (b : Bench) :
    ∃ due readings, (Campaign.timeUp deadline).run o b = (.ok due, { b with readings }) ∧
      (due = true ↔ Due o deadline b.readings) ∧
      ∀ i, Due o deadline (readings + i) ↔ Due o deadline (b.readings + (i + 1)) := by
  cases deadline with
  | none => exact ⟨false, b.readings, rfl, by simp [Due], by simp [Due]⟩
  | some d =>
    refine ⟨d.le (o.clock b.readings), b.readings + 1, rfl, by simp [Due], fun i => ?_⟩
    rw [Nat.add_assoc, Nat.add_comm 1]

/-! ## Courses step by step -/

section
variable {c : Campaign} {settings : Settings} {planner : Planner} {o : Outside} {place : Place}
  {deadline : Option Binary64} {left index : Nat} {b b₁ b' : Bench}

theorem Course.ran_nil : Course.Ran c settings o place deadline 0 index b b ⟨[], []⟩ where
  asked := ⟨[], by simp, rfl⟩
  bounded := Nat.le_refl 0
  complete := by simp
  written _ h := h
  early := by simp
  ends := by simp [Course.replies]

theorem Course.ran_cut {replies : List MachineReply} (hf : b.Follows o place replies b')
    (hesc : ∃ reply ∈ replies, Machine.Escapes reply) :
    Course.Ran c settings o place deadline (left + 1) index b b' ⟨[], replies⟩ where
  asked := hf.asked
  bounded := Nat.zero_le _
  complete := by simp
  written := hf.kept
  early := by simp
  ends := by
    obtain ⟨reply, hmem, hesc⟩ := hesc
    simp only [Course.replies, List.flatMap_nil, List.nil_append, List.length_nil]
    refine ⟨fun h => absurd hesc (h reply hmem), ?_⟩
    rintro (h | ⟨i, h, -⟩) <;> omega

structure TestTrace.Made (c : Campaign) (settings : Settings) (o : Outside) (place : Place)
    (index : Nat) (b b' : Bench) (t : TestTrace) : Prop where
  complete : t.Complete c settings index
  asked : ∃ more, b'.asked = b.asked ++ more ∧ o.replies b.asked more = t.replies
  written : ∀ content, b.files.at? place = some (.file content) →
    b'.files.at? place = some (.file (content ++ t.lines))
  kept : ∀ reply ∈ t.replies, ¬ Machine.Escapes reply

theorem TestTrace.Made.later {t : TestTrace} (ht : t.Made c settings o place index b b₁)
    (hasked : b'.asked = b₁.asked) (hfiles : b'.files = b₁.files) :
    t.Made c settings o place index b b' where
  complete := ht.complete
  asked := by rw [hasked]; exact ht.asked
  written := by rw [hfiles]; exact ht.written
  kept := ht.kept

theorem Course.ran_due {t : TestTrace} (ht : t.Made c settings o place index b b')
    (hdue : Due o deadline b.readings) :
    Course.Ran c settings o place deadline (left + 1) index b b' ⟨[t], []⟩ where
  asked := by simpa [Course.replies] using ht.asked
  bounded := by simp
  complete i t' hi := by
    cases i with
    | zero => cases hi; exact ht.complete
    | succ i => cases hi
  written := ht.written
  early := by simp
  ends := by
    simp only [Course.replies, List.flatMap_cons, List.flatMap_nil, List.append_nil,
      List.length_singleton]
    exact ⟨fun _ => Or.inr ⟨0, rfl, hdue⟩, fun _ => ht.kept⟩

theorem Course.ran_cons {t : TestTrace} {k : Course} (ht : t.Made c settings o place index b b₁)
    (hnot : ¬ Due o deadline b.readings)
    (hshift : ∀ i, Due o deadline (b₁.readings + i) ↔ Due o deadline (b.readings + (i + 1)))
    (hk : Course.Ran c settings o place deadline left (index + 1) b₁ b' k) :
    Course.Ran c settings o place deadline (left + 1) index b b' ⟨t :: k.done, k.cut⟩ where
  asked := by
    obtain ⟨more, he, hm⟩ := ht.asked
    obtain ⟨more', he', hm'⟩ := hk.asked
    refine ⟨more ++ more', by rw [he', he, List.append_assoc], ?_⟩
    rw [o.replies_append, hm, ← he, hm', Course.replies_cons]
  bounded := Nat.succ_le_succ hk.bounded
  complete i t' hi := by
    cases i with
    | zero => cases hi; exact ht.complete
    | succ i =>
      have := hk.complete i t' hi
      rwa [Nat.add_assoc, Nat.add_comm 1] at this
  written content hc := hk.written _ (ht.written content hc)
  early i hi := by
    cases i with
    | zero => exact hnot
    | succ i =>
      rw [← hshift]
      exact hk.early i (by simpa using hi)
  ends := by
    have hreplies : (∀ reply ∈ (⟨t :: k.done, k.cut⟩ : Course).replies, ¬ Machine.Escapes reply) ↔
        ∀ reply ∈ k.replies, ¬ Machine.Escapes reply := by
      simpa using not_congr (Course.escapes_cons ht.kept k)
    rw [hreplies, hk.ends, List.length_cons, Nat.add_right_cancel_iff]
    refine or_congr_right ⟨?_, ?_⟩
    · rintro ⟨i, hi, hdue⟩
      exact ⟨i + 1, by rw [hi], (hshift i).mp hdue⟩
    · rintro ⟨i, hi, hdue⟩
      cases i with
      | zero => exact absurd hdue hnot
      | succ i => exact ⟨i, by omega, (hshift i).mpr hdue⟩

end

/-! ## The loop -/

section
variable {c : Campaign} {settings : Settings} {planner : Planner} {o : Outside} {place : Place}
  {limit : Nat} {u : c.Unhindered planner o place limit} (hc : c.OnTools settings planner)
include hc

/-- One test with its lines: made to its end and written, or faulted after a reply that escapes. -/
theorem run_recordedTest {index : Nat} (hindex : index < limit) {results : ResultsFile}
    (hp : results.place = some place) {b : Bench} (hb : u.Ready b)
    (hfile : ∃ content, b.files.at? place = some (.file content)) :
    (∃ results' report b' t, (c.recordedTest index results).run o b = (.ok (results', report), b') ∧
      results'.place = some place ∧ u.Ready b' ∧ b'.readings = b.readings ∧
      TestTrace.Made c settings o place index b b' t) ∨
    (∃ fault replies b', (c.recordedTest index results).run o b = (.error fault, b') ∧
      b.Follows o place replies b' ∧ ∃ reply ∈ replies, Machine.Escapes reply) := by
  obtain ⟨content, hcontent⟩ := hfile
  obtain ⟨replies, r, b', hrun, hfol, h⟩ := isolates_test hc hb hindex
  rcases h with ⟨report, rfl, hb', ⟨t, ht, rfl, hrecords⟩, hkept⟩ | ⟨⟨fault, rfl⟩, hesc⟩
  · obtain ⟨results', files, hwrite, hp', hfiles, hsame⟩ :=
      run_write (o := o) hp (hfol.kept content hcontent) (hrecords ▸ ht.encoded)
    have hready : u.Ready { b' with files } := by
      rcases hsame with rfl | rfl
      · exact hb'
      · exact u.ready_appended hb' t.lines
    refine Or.inl ⟨results', report, { b' with files }, t, ?_, hp', hready, hfol.readings, ?_⟩
    · rw [Campaign.recordedTest, Session.run_bind_ok hrun, Session.run_bind_ok hwrite]
      rfl
    · refine ⟨ht, hfol.asked, ?_, hkept⟩
      intro content' h
      rw [hcontent] at h
      cases h
      exact hfiles
  · refine Or.inr ⟨fault, replies, b', ?_, hfol, hesc⟩
    rw [Campaign.recordedTest, Session.run_bind_error hrun]

theorem run_tests (deadline : Option Binary64) {left index : Nat} (hlimit : index + left ≤ limit)
    {results : ResultsFile} (hp : results.place = some place) (stats : CampaignStats) {b : Bench}
    (hb : u.Ready b) (hfile : ∃ content, b.files.at? place = some (.file content)) :
    ∃ k stats' ending b', (c.tests deadline left index results stats).run o b =
        (.ok (stats', ending), b') ∧ stats'.tests = stats.tests + k.done.length ∧
      Course.Ran c settings o place deadline left index b b' k ∧
      ((∃ reply ∈ k.replies, Machine.Escapes reply) → ∃ fault, ending = .faulted fault) := by
  induction left generalizing index results stats b with
  | zero => exact ⟨⟨[], []⟩, stats, .spent, b, rfl, rfl, Course.ran_nil, by simp [Course.replies]⟩
  | succ left ih =>
    have hattempt := Session.run_attempt o b (c.recordedTest index results)
    unfold Campaign.tests
    rcases run_recordedTest hc (by omega : index < limit) hp hb hfile with
      ⟨results', report, b₁, t, hrun, hp', hb₁, hreadings, ht⟩ | ⟨fault, replies, b₁, hrun, hfol, hesc⟩
    · rw [hrun] at hattempt
      rw [Session.run_bind_ok hattempt]
      dsimp only
      generalize hstats : Campaign.countTest stats report = stats₁
      have hcount : stats₁.tests = stats.tests + 1 := hstats ▸ countTest_tests stats report
      rw [Session.run_bind_ok (Session.run_printLine o _ _)]
      have hready := u.ready_printed hb₁ (b₁.printed ++ [Campaign.progressLine index report stats₁])
      generalize he : ({ b₁ with printed := _ } : Bench) = b₂ at hready ⊢
      have ht₂ : t.Made c settings o place index b b₂ := ht.later (by rw [← he]) (by rw [← he])
      have hreadings₂ : b₂.readings = b.readings := by rw [← he]; exact hreadings
      obtain ⟨due, readings, htime, hdue, hshift⟩ := run_timeUp o deadline b₂
      have hready₃ := u.ready_readings hready readings
      generalize he₃ : ({ b₂ with readings } : Bench) = b₃ at htime hready₃
      have ht₃ : t.Made c settings o place index b b₃ := ht₂.later (by rw [← he₃]) (by rw [← he₃])
      rw [hreadings₂] at hdue hshift
      have hshift₃ : ∀ i, Due o deadline (b₃.readings + i) ↔
          Due o deadline (b.readings + (i + 1)) := by rw [← he₃]; exact hshift
      rw [Session.run_bind_ok htime]
      cases due with
      | true =>
        refine ⟨⟨[t], []⟩, { stats₁ with timeLimitReached := true }, .timeUp, _, rfl, hcount, ?_⟩
        refine ⟨Course.ran_due (ht₃.later rfl rfl) (hdue.mp rfl), fun hesc => ?_⟩
        obtain ⟨reply, hmem, -⟩ := (Course.escapes_cons ht.kept ⟨[], []⟩).mp hesc
        cases hmem
      | false =>
        have hnot : ¬ Due o deadline b.readings := fun h => by cases hdue.mpr h
        obtain ⟨content, hcontent⟩ := hfile
        have hnext : index + 1 + left ≤ limit := by omega
        obtain ⟨k, stats', ending, b', hrest, htests, hran, hfaulted⟩ :=
          ih hnext hp' stats₁ hready₃ ⟨_, ht₃.written content hcontent⟩
        refine ⟨⟨t :: k.done, k.cut⟩, stats', ending, b', hrest, ?_, ?_⟩
        · rw [htests, hcount, List.length_cons]; omega
        · refine ⟨Course.ran_cons ht₃ hnot hshift₃ hran, fun hesc => ?_⟩
          exact hfaulted ((Course.escapes_cons ht.kept k).mp hesc)
    · rw [hrun] at hattempt
      refine ⟨⟨[], replies⟩, stats, .faulted fault, b₁, ?_, rfl, Course.ran_cut hfol hesc,
        fun _ => ⟨fault, rfl⟩⟩
      rw [Session.run_bind_ok hattempt]
      rfl

omit hc in
/-- An open results file is a file that is there, with what was in it. -/
theorem run_opened_inv {r r' : ResultsFile} {b b' : Bench}
    (h : r.opened.run o b = (.ok r', b')) (hp : r'.place = some place) :
    b'.asked = b.asked ∧ b'.readings = b.readings ∧ b.files.Grows b'.files ∧
      ∃ content, b'.files.at? place = some (.file content) := by
  obtain ⟨place', d, files, events, rfl, hplace, hgrows, -, hcontent, -⟩ := run_opened h
  rw [hp] at hplace
  cases hplace
  exact ⟨rfl, rfl, hgrows, _, hcontent⟩

omit hc in
theorem run_conclude (start : Binary64) (stats : CampaignStats) (b : Bench) :
    ∃ r b', (Campaign.conclude start stats).run o b = (r, b') ∧ b'.asked = b.asked ∧
      b'.files = b.files := by
  unfold Campaign.conclude
  rw [Session.run_bind_ok (Session.run_readClock o b)]
  dsimp only
  split
  · split <;> exact ⟨_, _, rfl, rfl, rfl⟩
  · exact ⟨_, _, rfl, rfl, rfl⟩

end

/-! ## The whole campaign -/

def Campaign.CampaignEnd.stats : Campaign.CampaignEnd → CampaignStats
  | finished stats => stats
  | faulted stats _ => stats
  | unfinished stats => stats

section
variable {c : Campaign} {settings : Settings} {planner : Planner} {o : Outside} {place : Place}
  {budget : Nat}

def Campaign.started (c : Campaign) (b : Bench) : Bench :=
  { b with
    readings := b.readings + 1
    events := b.events ++ [{
      level := .info, component := .campaign
      message :=
        let backends := ", ".intercalate (c.backends.map (·.version))
        s!"Starting differential fuzzing: {c.seedCount} seeds, backends={backends}, " ++
          s!"depth={c.config.rewriteDepth}" }] }

/-- A campaign is its tests between the opening of the results file and the summary. -/
theorem run_around_tests {b b₁ b₂ : Bench} {deadline : Option Binary64} {results : ResultsFile}
    {stats : CampaignStats} {ending : Campaign.Ending}
    (hd : Campaign.deadlineFrom (o.clock b.readings) c.config.timeLimitMs = .ok deadline)
    (hopen : (ResultsFile.mk c.resultsPath none 0).opened.run o (c.started b) = (.ok results, b₁))
    (htests : (c.tests deadline (c.testsAtMost budget) 0 results {}).run o b₁ =
      (.ok (stats, ending), b₂)) :
    ∃ e b', (c.run budget).run o b = (.ok e, b') ∧ e.stats = stats ∧ b'.asked = b₂.asked ∧
      b'.files = b₂.files ∧ ∀ fault, ending = .faulted fault → ∃ fault, e = .faulted stats fault := by
  obtain ⟨r, b', hconclude, hasked, hfiles⟩ := run_conclude (o := o) (o.clock b.readings) stats b₂
  have hsummed := Session.run_attempt o b₂ (Campaign.conclude (o.clock b.readings) stats)
  rw [hconclude] at hsummed
  have hopened := Session.run_attempt o (c.started b) (ResultsFile.mk c.resultsPath none 0).opened
  rw [hopen] at hopened
  dsimp only [Campaign.started] at hopened
  unfold Campaign.run
  rw [Session.run_bind_ok (Session.run_readClock o b), hd]
  rw [Session.run_bind_ok (Session.run_ofExcept o _ _)]
  dsimp only
  rw [Session.run_bind_ok (Session.run_info o _ _ _)]
  dsimp only
  rw [Session.run_bind_ok hopened]
  dsimp only
  rw [Session.run_bind_ok htests]
  dsimp only
  rw [Session.run_bind_ok hsummed]
  cases r with
  | error fault => exact ⟨_, _, rfl, rfl, hasked, hfiles, fun _ _ => ⟨fault, rfl⟩⟩
  | ok _ =>
    cases ending with
    | faulted fault => exact ⟨_, _, rfl, rfl, hasked, hfiles, fun _ _ => ⟨fault, rfl⟩⟩
    | timeUp => exact ⟨_, _, rfl, rfl, hasked, hfiles, fun _ h => by cases h⟩
    | spent =>
      dsimp only
      split <;> exact ⟨_, _, rfl, rfl, hasked, hfiles, fun _ h => by cases h⟩

/-- Between the opening of its results file and its summary, an unhindered campaign is a course. -/
theorem run_course (hc : c.OnTools settings planner)
    (u : c.Unhindered planner o place (c.testsAtMost budget)) {b : Bench} (hb : u.Ready b)
    {deadline : Option Binary64}
    (hd : Campaign.deadlineFrom (o.clock b.readings) c.config.timeLimitMs = .ok deadline) :
    ∃ (k : Course) (e : Campaign.CampaignEnd) (b₁ b' : Bench) (content : ByteArray),
      (c.run budget).run o b = (.ok e, b') ∧ e.stats.tests = k.done.length ∧
      b₁.asked = b.asked ∧ b₁.readings = b.readings + 1 ∧ b.files.Grows b₁.files ∧
      b₁.files.at? place = some (.file content) ∧
      k.Ran c settings o place deadline (c.testsAtMost budget) 0 b₁ b' ∧
      ((∃ reply ∈ k.replies, Machine.Escapes reply) → ∃ fault, e = .faulted e.stats fault) := by
  have hready : u.Ready (c.started b) :=
    u.ready_events (u.ready_readings hb (b.readings + 1)) _
  obtain ⟨results, b₁, hopen, hready₁, hplace⟩ := u.opens _ hready
  obtain ⟨hasked₁, hreadings₁, hgrows, content, hcontent⟩ := run_opened_inv hopen hplace
  obtain ⟨k, stats, ending, b₂, htests, hcount, hran, hfaulted⟩ := run_tests hc deadline
    (Nat.le_of_eq (Nat.zero_add _)) hplace {} hready₁ ⟨content, hcontent⟩
  obtain ⟨e, b', hrun, hstats, hasked, hfiles, hend⟩ :=
    run_around_tests hd hopen htests
  have hran' : k.Ran c settings o place deadline (c.testsAtMost budget) 0 b₁ b' :=
    { hran with
      asked := hasked ▸ hran.asked
      written := hfiles ▸ hran.written }
  refine ⟨k, e, b₁, b', content, hrun, ?_, hasked₁, hreadings₁, hgrows, hcontent, hran', ?_⟩
  · rw [hstats, hcount]
    exact Nat.zero_add _
  · intro hesc
    obtain ⟨fault, rfl⟩ := hfaulted hesc
    rw [hstats]
    exact hend fault rfl

/-- An unhindered campaign ends with its counters and its results file whatever the machine does.
It makes all its tests exactly if no reply of the machine escapes, and it is faulted if one does.
The clock is first read for the deadline, and then after each test. -/
theorem run_makes_all_tests_iff_none_escapes (hc : c.OnTools settings planner)
    (u : c.Unhindered planner o place (c.testsAtMost budget)) {b : Bench} (hb : u.Ready b)
    {deadline : Option Binary64}
    (hd : Campaign.deadlineFrom (o.clock b.readings) c.config.timeLimitMs = .ok deadline) :
    ∃ (k : Course) (e : Campaign.CampaignEnd) (b' : Bench) (content : ByteArray),
      (c.run budget).run o b = (.ok e, b') ∧ e.stats.tests = k.done.length ∧
      k.done.length ≤ c.testsAtMost budget ∧
      (∃ more, b'.asked = b.asked ++ more ∧ o.replies b.asked more = k.replies) ∧
      (∀ (i : Nat) (t : TestTrace), k.done[i]? = some t → t.Complete c settings i) ∧
      (∀ old, b.files.at? place = some (.file old) → content = old) ∧
      b'.files.at? place = some (.file (k.written content)) ∧
      (∀ i, i + 1 < k.done.length → ¬ Due o deadline (b.readings + 1 + i)) ∧
      ((∀ reply ∈ k.replies, ¬ Machine.Escapes reply) ↔ k.done.length = c.testsAtMost budget ∨
        ∃ i, k.done.length = i + 1 ∧ Due o deadline (b.readings + 1 + i)) ∧
      ((∃ reply ∈ k.replies, Machine.Escapes reply) → ∃ fault, e = .faulted e.stats fault) := by
  obtain ⟨k, e, b₁, b', content, hrun, htests, hasked₁, hreadings₁, hgrows, hcontent, hran, hfaulted⟩ :=
    run_course hc u hb hd
  have hasked := hran.asked
  have hearly := hran.early
  have hends := hran.ends
  rw [hasked₁] at hasked
  rw [hreadings₁] at hearly hends
  refine ⟨k, e, b', content, hrun, htests, hran.bounded, hasked, ?_, ?_, hran.written content hcontent,
    hearly, hends, hfaulted⟩
  · intro i t ht
    have := hran.complete i t ht
    rwa [Nat.zero_add] at this
  · intro old hold
    cases hcontent.symm.trans (hgrows place _ hold)
    rfl

/-- A campaign that is set up with a function to test is faulted by no reply of the machine but one
that escapes, and makes all its tests if none does. -/
theorem built_campaign_isolates {config : CampaignConfig} {b₀ b₁ : Bench}
    (hbuilt : (Campaign.build config settings).run o b₀ = (.ok c, b₁))
    (hf : config.testFunction.isSome) : ∃ planner : Planner,
    ∀ (u : c.Unhindered planner o place (c.testsAtMost budget)) (b : Bench)
      (deadline : Option Binary64), u.Ready b →
      Campaign.deadlineFrom (o.clock b.readings) c.config.timeLimitMs = .ok deadline →
      ∃ (k : Course) (e : Campaign.CampaignEnd) (b' : Bench),
        (c.run budget).run o b = (.ok e, b') ∧ e.stats.tests = k.done.length ∧
        ((∀ reply ∈ k.replies, ¬ Machine.Escapes reply) ↔ k.done.length = c.testsAtMost budget ∨
          ∃ i, k.done.length = i + 1 ∧ Due o deadline (b.readings + 1 + i)) ∧
        ((∃ reply ∈ k.replies, Machine.Escapes reply) → ∃ fault, e = .faulted e.stats fault) := by
  obtain ⟨planner, hc⟩ := (Campaign.yields_build config settings hf).of_run hbuilt
  refine ⟨planner, fun u b deadline hb hd => ?_⟩
  obtain ⟨k, e, b₂, b', -, hrun, htests, -, hreadings, -, -, hran, hfaulted⟩ :=
    run_course hc u hb hd
  exact ⟨k, e, b', hrun, htests, hreadings ▸ hran.ends, hfaulted⟩

end

/-! ## A campaign of two backends -/

namespace Sample

def planner : Planner := ⟨"f", "a"⟩

def resultsPlace : Place := { absolute := false, names := ["c.results.jsonl"] }

def sourcePath : Path := ⟨"", ["c.variant.0.sol"]⟩

def sourcePlace : Place := { absolute := false, names := ["c.variant.0.sol"] }

def campaign : Campaign where
  config := {
    seedFiles := [⟨"", ["c.sol"]⟩], versions := ["a", "b"], rewriteDepth := 0, testCount := some 1
    testFunction := some (.value "f") }
  seedCount := 1
  tools := {
    generate := Generator.generate { settings := {}, rules := { text := "" }, depth := 0 } [tree]
    render := Dispatcher.render { settings := {} }
    compile := Dispatcher.compile { settings := {} }
    execute := Machine.execute {}
    planner := some planner }
  first := ⟨"a"⟩
  others := [⟨"b"⟩]
  baseName := "c"
  directory := ⟨"", []⟩
  resultsPath := ⟨"", ["c.results.jsonl"]⟩

def outsideWith (machine : List Request → Json → MachineReply) : Outside :=
  { outside with machine }

structure Ready (b : Bench) : Prop where
  unused : b.files.Unused Machine.scratchPlace
  results : b.files.at? resultsPlace ≠ some .directory
  source : ∃ node, b.files.at? sourcePlace = some node
  installed : b.memory.installed = ["a", "b"]

theorem onTools : campaign.OnTools {} planner where
  generates := ⟨{ settings := {}, rules := { text := "" }, depth := 0 }, [tree], rfl, rfl⟩
  compiles := ⟨_, rfl, rfl⟩
  executes := rfl
  plans := rfl

theorem ready_put {b : Bench} (hb : Ready b) (content : ByteArray) :
    Ready { b with files := b.files.put resultsPlace (.file content) } where
  unused := hb.unused.put (by decide)
  results := by rw [FileStore.at?_put_self _ (by decide)]; simp
  source := by rw [FileStore.at?_put_of_ne _ (by decide)]; exact hb.source
  installed := hb.installed

theorem Ready.congr {b b' : Bench} (hb : Ready b) (hf : b'.files = b.files)
    (hm : b'.memory = b.memory) : Ready b' :=
  ⟨hf ▸ hb.unused, hf ▸ hb.results, hf ▸ hb.source, hm ▸ hb.installed⟩

theorem ready_beside {b b' : Bench} (hb : Ready b) (h : b.Beside resultsPlace b') : Ready b' := by
  obtain ⟨-, hfiles | ⟨lines, hfiles⟩, hmemory⟩ := h
  · exact hb.congr hfiles hmemory
  · unfold FileStore.appendAt at hfiles
    split at hfiles
    · exact (ready_put hb _).congr hfiles hmemory
    · exact hb.congr hfiles hmemory

variable (machine : List Request → Json → MachineReply)

omit machine in
theorem run_opened {o : Outside} {b : Bench} (hr : b.files.at? resultsPlace ≠ some .directory) :
    ∃ r files events, (ResultsFile.mk campaign.resultsPath none 0).opened.run o b =
        (.ok r, { b with files, events }) ∧ r.place = some resultsPlace ∧
      (files = b.files ∨ files = b.files.put resultsPlace (.file .empty)) := by
  have hl : ∀ files : FileStore, files.locate campaign.resultsPath = .ok resultsPlace :=
    fun files => FileStore.locate_name files (by decide) (by decide) (by decide)
  have hdirectory : (Session.furnish campaign.resultsPath.parent).run o b = (.ok (), b) :=
    Session.run_furnish _ b (by decide) rfl
  obtain ⟨files, htouch, hfiles⟩ : ∃ files, b.files.touchFile campaign.resultsPath = .ok files ∧
      (files = b.files ∨ files = b.files.put resultsPlace (.file .empty)) := by
    cases hn : b.files.at? resultsPlace with
    | none =>
      exact ⟨_, by simp [FileStore.touchFile, hl, hn, ok_bind, pure, Except.pure], Or.inr rfl⟩
    | some node =>
      cases node with
      | file content =>
        exact ⟨b.files, by simp [FileStore.touchFile, hl, hn, ok_bind, pure, Except.pure], Or.inl rfl⟩
      | directory => exact absurd hn hr
  unfold ResultsFile.opened
  rw [Session.run_bind_ok hdirectory]
  rw [Session.run_bind_ok (Session.run_changeFiles _ b (by decide) htouch)]
  exact ⟨_, files, _, rfl, by simp [hl, Except.toOption], hfiles⟩

theorem opens : (ResultsFile.mk campaign.resultsPath none 0).opened.Answers (outsideWith machine) Ready
    fun r => r.place = some resultsPlace := by
  intro b hb
  obtain ⟨r, files, events, hrun, hplace, rfl | rfl⟩ := run_opened hb.results
  · exact ⟨r, _, hrun, hb.congr rfl rfl, hplace⟩
  · exact ⟨r, _, hrun, (ready_put hb .empty).congr rfl rfl, hplace⟩

omit machine in
theorem renders {o : Outside} (ho : ∀ asked input, o.engine asked input = .ended rendered)
    {backend : Backend} (h : backend.isEof = false) (b : Bench) : ∃ r,
    (Dispatcher.render { settings := {} } tree backend).run o b =
      (.ok (.text "x"), { b with asked := b.asked ++ [r] }) := by
  have hversion : (CompilerVersion.resolve {} backend).run o b = (.ok backend.version, b) := by
    simp [CompilerVersion.resolve, h]
  exact Dispatcher.run_render hversion (ho _ _) (checkReply_rendered _) rfl

omit machine in
theorem run_compile {o : Outside} (he : ∀ asked input, o.engine asked input = .ended rendered)
    (hc : ∀ asked version, o.compiler asked version = .ended standardEnd) {v : Variant}
    (hv : v.tree = tree) {backend : Backend} (hb : backend.isEof = false) {b : Bench}
    (hi : b.memory.installed.contains backend.version = true) : ∃ r r' events,
    (campaign.tools.compile v backend).run o b =
      (.ok (target.outcome backend), { b with asked := b.asked ++ [r] ++ [r'], events }) := by
  have hname : Dispatcher.targetName v = .ok (.text target.name) := by
    rw [Dispatcher.targetName, hv]
    rfl
  obtain ⟨r, hrender⟩ := renders he hb b
  rw [← hv] at hrender
  obtain ⟨output, houtput, hreads⟩ := standard_report.reads
  obtain ⟨events, hcompile⟩ := @StandardCompiler.run_compile o { b with asked := b.asked ++ [r] } _ {}
    backend.version (StandardCompiler.run_ensureInstalled hi) (.text "x") none
  obtain ⟨events', hrun⟩ := Dispatcher.run_compile_standard hb hrender hname hcompile
  rw [hc, StandardCompiler.verdict_ended, houtput, ok_bind, hreads target (by simp) backend] at hrun
  exact ⟨r, _, events', hrun⟩

theorem callable (c : CompiledContract) (backend : Backend)
    (h : ∀ f ∈ c.selectors, ∃ t, f.2 = .text t) : (c.outcome backend).Callable := by
  refine ⟨rfl, ?_⟩
  intro plan v hv
  obtain ⟨e, he, rfl⟩ := Option.map_eq_some_iff.mp hv
  obtain ⟨f, hf, rfl⟩ := List.mem_map.mp (List.mem_of_find?_eq_some he)
  exact Or.inr (h f hf)

theorem compiles {v : Variant} (hv : v.tree = tree) {backend : Backend}
    (hmem : backend ∈ campaign.backends) :
    (campaign.tools.compile v backend).Answers (outsideWith machine) Ready CompileOutcome.Callable := by
  intro b hb
  have hbackend : backend = ⟨"a"⟩ ∨ backend = ⟨"b"⟩ := List.mem_pair.mp hmem
  have heof : backend.isEof = false := by rcases hbackend with rfl | rfl <;> rfl
  have hinstalled : b.memory.installed.contains backend.version = true := by
    rw [hb.installed]
    rcases hbackend with rfl | rfl <;> rfl
  obtain ⟨r, r', events, hrun⟩ := run_compile (o := outsideWith machine) (fun _ _ => rfl)
    (fun _ _ => rfl) hv heof hinstalled
  refine ⟨_, _, hrun, hb.congr rfl rfl, callable target backend ?_⟩
  simp [target]

theorem keeps {v : Variant} (hv : v.tree = tree) :
    (campaign.renderFirst v >>= saveVariant sourcePath).Answers (outsideWith machine) Ready
      fun _ => True := by
  intro b hb
  obtain ⟨r, hrender⟩ := renders (o := outsideWith machine) (fun _ _ => rfl)
    (by rfl : (Backend.mk "a").isEof = false) b
  have hready : Ready { b with asked := b.asked ++ [r] } := hb.congr rfl rfl
  generalize ({ b with asked := b.asked ++ [r] } : Bench) = b₁ at hrender hready
  obtain ⟨node, hnode⟩ := hready.source
  have hdirectory : (Session.furnish sourcePath.parent).run (outsideWith machine) b₁ =
      (.ok (), b₁) := Session.run_furnish _ b₁ (by decide) rfl
  have hpath : (Session.checkPath sourcePath).run (outsideWith machine) b₁ = (.ok (), b₁) := by
    rw [Session.checkPath, show sourcePath.flaw? = none by decide]
    rfl
  have hl : b₁.files.locate sourcePath = .ok sourcePlace :=
    FileStore.locate_name _ (by decide) (by decide) (by decide)
  have htaken : b₁.files.createFile sourcePath = .error ⟨.taken, sourcePath.text⟩ := by
    simp [FileStore.createFile, hl, hnode, ok_bind, throw, throwThe, MonadExceptOf.throw]
  have hrendered : (campaign.renderFirst v).run (outsideWith machine) b = (.ok (.text "x"), b₁) := by
    rw [Campaign.renderFirst, hv]
    exact hrender
  refine ⟨false, b₁, ?_, hready, trivial⟩
  unfold saveVariant
  rw [Session.run_bind_ok hrendered, Session.run_bind_ok hdirectory, Session.run_bind_ok hpath,
    Session.run_bind_ok (Session.run_get _ b₁), htaken]
  rfl

def unhindered : campaign.Unhindered planner (outsideWith machine) resultsPlace 1 where
  Ready := Ready
  Made i v := v = { index := i, tree, seed := tree }
  beside := ready_beside
  unused hb := hb.unused
  apart := rfl
  opens := opens machine
  generates := by
    intro i hi b hb
    exact ⟨_, _, rfl, hb.congr rfl rfl, rfl⟩
  presents := by
    intro i v hi hv b hb
    exact ⟨(), b, rfl, hb, trivial⟩
  plans := by
    rintro i v hi rfl b hb
    exact ⟨_, _, rfl, hb.congr rfl rfl, trivial⟩
  compiles := by
    rintro i v backend hi rfl hb
    exact compiles machine rfl hb
  keeps := by
    rintro i v hi rfl
    obtain rfl : i = 0 := Nat.lt_one_iff.mp hi
    have hpath : campaign.variantPath (0 : Nat) = sourcePath := by decide
    rw [hpath]
    exact keeps machine rfl

def benchWithSource : Bench where
  files := ⟨[(sourcePlace, .file .empty)]⟩
  memory := { installed := ["a", "b"] }

theorem ready_benchWithSource : Ready benchWithSource where
  unused := by
    intro n hn
    rw [List.mem_singleton.mp hn]
    rfl
  results := by decide
  source := ⟨_, rfl⟩
  installed := rfl

end Sample

theorem run_makes_the_test_with_timeouts : ∃ e b',
    (Sample.campaign.run 0).run (Sample.outsideWith fun _ _ => ⟨.timedOut, none, none⟩)
      Sample.benchWithSource = (.ok e, b') ∧ e.stats.tests = 1 := by
  obtain ⟨k, e, b', content, hrun, htests, hbound, ⟨more, hasked, hreplies⟩, -, -, -, -, hends, -⟩ :=
    @run_makes_all_tests_iff_none_escapes Sample.campaign {} Sample.planner _ Sample.resultsPlace 0
      Sample.onTools (Sample.unhindered fun _ _ => ⟨.timedOut, none, none⟩) _
      Sample.ready_benchWithSource none rfl
  refine ⟨e, b', hrun, ?_⟩
  have hnone : ∀ reply ∈ k.replies, ¬ Machine.Escapes reply := by
    intro reply hmem hesc
    rw [← hreplies] at hmem
    obtain ⟨earlier, bytecode, rfl⟩ := Outside.mem_replies hmem
    cases hesc
  rw [htests]
  rcases hends.mp hnone with h | ⟨i, -, d, hd, -⟩
  · exact h
  · cases hd

end BackendFuzz
