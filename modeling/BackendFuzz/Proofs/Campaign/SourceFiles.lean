import BackendFuzz.Proofs.Campaign.ResultsLog
import BackendFuzz.Proofs.Campaign.Sources

/-!
# Records and sources

If nothing is where the sources of variants go when the first test begins, then
however a run ends, the sources in its directory are the files that its records
name, or, if all sources are to be saved, those of the tests that were made and
at most that of the test that was cut short. What a source holds never changes.
-/

namespace BackendFuzz

open Session

theorem Text.encode_of_scalar {s : String} (h : Text.Scalar s) :
    ∃ content, Text.encode s = .ok content := by
  have hrun : Text.loneRun? (fun _ => false) 0 (Text.points s.toList) = none :=
    Text.loneRun?_eq_none _ h 0
  unfold Text.encode
  dsimp only
  rw [hrun]
  exact ⟨_, rfl⟩

def Outside.RendersTexts (o : Outside) (settings : Settings) : Prop :=
  ∀ tree version b value, ((Engine.render settings tree version).run o b).1 = .ok value →
    ∃ text, value = .text text ∧ Text.Scalar text

theorem Outside.Renders.texts {o : Outside} {settings : Settings}
    {source : SyntaxTree → String → String} (h : o.Renders settings source) :
    o.RendersTexts settings := by
  intro tree version b value hvalue
  obtain ⟨rfl, hscalar⟩ := h tree version b value hvalue
  exact ⟨_, rfl, hscalar⟩

namespace FileStore

theorem Grows.free {s s' : FileStore} {path : Path} (h : s.Grows s') (hf : s'.Free path) :
    s.Free path := by
  intro node hnode
  obtain ⟨p, hl, hp⟩ := node?_inv hnode
  have hl' := locate_of_directories (fun q _ => h q .directory) hl
  exact hf node (by rw [node?_of_locate hl', h p node hp])

end FileStore

namespace Campaign

/-! ## Sources of one test -/

section
variable {c : Campaign} {settings : Settings} {o : Outside} {d : Place} {W : Place → Prop}
  {variant : Variant} {index : Int} {b b' : Bench}

/-- Nothing that happens elsewhere changes what is where a source goes. -/
theorem Around.node?_iff (ha : c.Around d W b b') (hp : c.Placed d b.files)
    (hw : ¬ W (d.down (c.sourceName index))) (node : FileNode) :
    b'.files.node? (c.variantPath index) = .ok (some node) ↔
      b.files.node? (c.variantPath index) = .ok (some node) := by
  have hfiles := ha.files hp
  have hat := hfiles.at? (hp.reached (c.sourceName index)) hw
  constructor
  · intro h
    obtain ⟨p, hl, hnode⟩ := FileStore.node?_inv h
    obtain ⟨rfl, hl'⟩ := hp.locate_child (hp.changes hfiles) (c.sourceName_ne_dots index) hl
    exact (FileStore.node?_of_locate hl').trans (by rw [← hat, hnode])
  · intro h
    obtain ⟨p, hl, hnode⟩ := FileStore.node?_inv h
    obtain rfl := FileStore.locate_child (c.sourceName_ne_dots index) hp.locate hl
    rw [FileStore.node?_of_locate (hfiles.locate hl), hat, hnode]

theorem Around.free (ha : c.Around d W b b') (hp : c.Placed d b.files)
    (hw : ¬ W (d.down (c.sourceName index))) (hf : b.files.Free (c.variantPath index)) :
    b'.files.Free (c.variantPath index) :=
  fun node hnode => hf node ((ha.node?_iff hp hw node).mp hnode)

def HasSource (c : Campaign) (files : FileStore) (index : Int) : Prop :=
  ∃ content, files.read (c.variantPath index) = .ok content

theorem not_hasSource {files : FileStore} (h : files.Free (c.variantPath index)) :
    ¬ c.HasSource files index :=
  fun ⟨_, hread⟩ => h _ (FileStore.read_inv hread)

theorem Around.hasSource_iff (ha : c.Around d W b b') (hp : c.Placed d b.files)
    (hw : ¬ W (d.down (c.sourceName index))) :
    c.HasSource b'.files index ↔ c.HasSource b.files index := by
  have hread : ∀ content, b'.files.read (c.variantPath index) = .ok content ↔
      b.files.read (c.variantPath index) = .ok content := fun content =>
    ⟨fun h => FileStore.read_of_node? ((ha.node?_iff hp hw _).mp (FileStore.read_inv h)),
      fun h => FileStore.read_of_node? ((ha.node?_iff hp hw _).mpr (FileStore.read_inv h))⟩
  exact exists_congr hread

variable (hc : c.Equipped settings)
include hc

theorem renderFirst_text (ho : o.RendersTexts settings) {value : Json}
    (h : (c.renderFirst variant).run o b = (.ok value, b')) :
    ∃ text content, value = .text text ∧ Text.encode text = .ok content := by
  obtain ⟨user, hrender, -⟩ := hc.compiles
  rw [renderFirst, hrender] at h
  obtain ⟨version, b₁, -, h⟩ := run_bind_ok_inv h
  obtain ⟨text, rfl, hscalar⟩ := ho variant.tree version b₁ value (by rw [h])
  obtain ⟨content, hcontent⟩ := Text.encode_of_scalar hscalar
  exact ⟨text, content, rfl, hcontent⟩

/-- Where nothing is, a source is kept whole or not at all. -/
theorem keepSource_free (ho : o.RendersTexts settings) (hp : c.Placed d b.files)
    (hf : b.files.Free (c.variantPath index)) {r : Except Fault Unit}
    (h : (c.keepSource true index variant).run o b = (r, b')) :
    (r = .ok () ∧ c.HasSource b'.files index) ∨
      ((∃ fault, r = .error fault) ∧ b'.files.Free (c.variantPath index)) := by
  unfold keepSource at h
  rw [if_pos rfl] at h
  rcases hrender : (c.renderFirst variant).run o b with ⟨fault | value, b₁⟩
  all_goals
    have haround : c.Around d (fun _ => False) b b₁ :=
      around_of_left ((leaves_renderFirst hc variant).of_run hrender)
    have hf₁ := haround.free hp id hf
    have hp₁ := hp.changes (haround.files hp)
  · rw [run_bind_error hrender] at h
    cases h
    exact Or.inr ⟨⟨fault, rfl⟩, hf₁⟩
  · obtain ⟨text, content, rfl, hencode⟩ := renderFirst_text hc ho hrender
    have hparent : (c.variantPath index).parent = c.directory := Path.parent_child _ _
    rw [run_bind_ok hrender, saveVariant_eq, hparent] at h
    obtain ⟨fault | made, hr⟩ := run_furnish_there o hp₁.locate hp₁.there
    · rw [run_bind_error (run_bind_error hr _)] at h
      cases h
      exact Or.inr ⟨⟨fault, rfl⟩, hf₁⟩
    · rw [run_bind, run_bind_ok hr] at h
      rcases storeSource_free o hf₁ hencode with ⟨b₂, hstored, hnode⟩ | ⟨fault, hstored⟩
      · rw [hstored] at h
        cases h
        exact Or.inl ⟨rfl, content, FileStore.read_of_node? hnode⟩
      · rw [hstored] at h
        cases h
        exact Or.inr ⟨⟨fault, rfl⟩, hf₁⟩

omit hc in
def examine (c : Campaign) (index : Int) (variant : Variant) : Session TestReport := do
  let plan ← c.planFor variant
  let results ← c.tryBackends variant plan
  c.judge index plan results

theorem leaves_examine (index : Int) (variant : Variant) :
    (c.examine index variant).Leaves (c.Around d W) :=
  leaves_bind ((leaves_planFor variant).mono fun _ _ => around_of_left) fun plan =>
    leaves_bind ((leaves_tryBackends hc variant plan).mono fun _ _ h =>
      around_of_left (h.mono (fun _ => id) fun _ _ => FileStore.Swept.changes)) fun results =>
        (leaves_judge index plan results).mono fun _ _ => around_of_left

/-! ### Sources for records only -/

def survey (c : Campaign) (index : Int) : Session (Variant × TestReport) := do
  let variant ← c.tools.generate index
  c.present variant
  let report ← c.examine index variant
  return (variant, report)

omit hc in
theorem test_eq_survey (c : Campaign) (index : Int) : c.test index = (do
    let (variant, report) ← c.survey index
    c.keepSource (c.keptLate report) index variant
    return report) := by
  simp only [test_eq, survey, examine, bind_assoc, pure_bind]

theorem leaves_present (hsave : c.config.saveVariants = false) (variant : Variant) :
    (c.present variant).Leaves (c.Around d W) := by
  rw [present_eq, hsave]
  exact leaves_bind (leaves_showSource hc variant) fun _ => leaves_pure _

theorem leaves_survey (hsave : c.config.saveVariants = false) (index : Int) :
    (c.survey index).Leaves (c.Around d W) :=
  leaves_bind ((leaves_generate hc index).mono fun _ _ => around_of_left) fun variant =>
    leaves_bind (leaves_present hc hsave variant) fun _ =>
      leaves_bind (leaves_examine hc index variant) fun _ => leaves_pure _

/-- A test keeps a source exactly if it comes to records. -/
theorem test_source_late (ho : o.RendersTexts settings) (hsave : c.config.saveVariants = false)
    (hp : c.Placed d b.files) (hf : b.files.Free (c.variantPath index))
    {r : Except Fault TestReport} (h : (c.test index).run o b = (r, b')) :
    (c.HasSource b'.files index ∧ ∃ report, r = .ok report ∧ report.records ≠ []) ∨
      (b'.files.Free (c.variantPath index) ∧ ∀ report, r = .ok report → report.records = []) := by
  rw [test_eq_survey] at h
  rcases run_bind_cases h with ⟨fault, rfl, hrun⟩ | ⟨⟨variant, report⟩, b₁, hrun, h⟩
  all_goals
    have haround : c.Around d (fun _ => False) b _ := (leaves_survey hc hsave index).of_run hrun
    have hf₁ := haround.free hp id hf
  · exact Or.inr ⟨hf₁, fun _ h => by cases h⟩
  dsimp only at h
  by_cases hrecords : report.records = []
  · have hlate : c.keptLate report = false := by simp [keptLate, hrecords]
    rw [hlate] at h
    cases h
    exact Or.inr ⟨hf₁, fun _ h => by cases h; exact hrecords⟩
  · have hlate : c.keptLate report = true := by simp [keptLate, hsave, hrecords]
    rw [hlate] at h
    have hp₁ := hp.changes (haround.files hp)
    rcases run_bind_cases h with ⟨fault, rfl, hkeep⟩ | ⟨_, b₂, hkeep, h⟩
    · rcases keepSource_free hc ho hp₁ hf₁ hkeep with ⟨hr, -⟩ | ⟨-, hfree⟩
      · cases hr
      · exact Or.inr ⟨hfree, fun _ h => by cases h⟩
    · cases h
      rcases keepSource_free hc ho hp₁ hf₁ hkeep with ⟨-, hsource⟩ | ⟨⟨_, hr⟩, -⟩
      · exact Or.inl ⟨hsource, report, rfl, hrecords⟩
      · cases hr

/-! ### Sources of all variants -/

omit hc in
def finish (c : Campaign) (index : Int) (variant : Variant) : Session TestReport := do
  let report ← c.examine index variant
  c.keepSource (c.keptLate report) index variant
  return report

omit hc in
theorem test_eq_finish (c : Campaign) (index : Int) : c.test index = (do
    let variant ← c.tools.generate index
    c.present variant
    c.finish index variant) := by
  simp only [test_eq, finish, examine, bind_assoc]

theorem leaves_finish (hsave : c.config.saveVariants = true) (index : Int) (variant : Variant) :
    (c.finish index variant).Leaves (c.Around d W) := by
  refine leaves_bind (leaves_examine hc index variant) fun report => ?_
  have hlate : c.keptLate report = false := by simp [keptLate, hsave]
  rw [hlate]
  exact leaves_pure _

/-- A test that comes to its end has kept its source. -/
theorem test_source_saved (ho : o.RendersTexts settings) (hsave : c.config.saveVariants = true)
    (hp : c.Placed d b.files) (hf : b.files.Free (c.variantPath index)) {report : TestReport}
    (h : (c.test index).run o b = (.ok report, b')) : c.HasSource b'.files index := by
  rw [test_eq_finish] at h
  obtain ⟨variant, b₁, hgenerate, h⟩ := run_bind_ok_inv h
  obtain ⟨_, b₂, hpresent, hfinish⟩ := run_bind_ok_inv h
  have hindex : variant.index = index := (yields_generate hc index).of_run hgenerate
  rw [present_eq, hsave, hindex] at hpresent
  obtain ⟨_, b₃, hshow, hkeep⟩ := run_bind_ok_inv hpresent
  have hshown := trans_of (c.Around d fun _ => False)
    (around_of_left ((leaves_generate hc index).of_run hgenerate))
    ((leaves_showSource hc variant).of_run hshow)
  have hp₃ := hp.changes (hshown.files hp)
  have hp₂ := hp₃.changes (((leaves_keepSource hc true index variant).of_run hkeep).files hp₃)
  have hfinished : c.Around d (fun _ => False) b₂ b' :=
    (leaves_finish hc hsave index variant).of_run hfinish
  rcases keepSource_free hc ho hp₃ (hshown.free hp id hf) hkeep with ⟨-, hsource⟩ | ⟨⟨_, hr⟩, -⟩
  · exact (hfinished.hasSource_iff hp₂ id).mpr hsource
  · cases hr

end

/-! ## What becomes of sources -/

/-- Every source that there is stays, and holds what it holds. -/
def Lasts (c : Campaign) (b b' : Bench) : Prop :=
  ∀ (index : Nat) content, b.files.read (c.variantPath index) = .ok content →
    b'.files.read (c.variantPath index) = .ok content

instance (c : Campaign) : IsPreorder Bench c.Lasts where
  refl _ _ _ h := h
  trans _ _ _ h h' index content hread := h' index content (h index content hread)

/-- The bench before an iteration, once its variant has been presented or not, or after it. -/
inductive Iteration.Moment (c : Campaign) (o : Outside) (it : Iteration) : Bench → Prop
  | before : Moment c o it it.before
  | presented {variant : Variant} {b b' : Bench} {r : Except Fault Unit}
    (hgenerate : (c.tools.generate it.index).run o it.before = (.ok variant, b))
    (hpresent : (c.present variant).run o b = (r, b')) : Moment c o it b'
  | after : Moment c o it it.after

/-- What an iteration has come to for its source: if sources are kept for records only, there is one
exactly if there are records, and if all are saved, there is one if the iteration was not cut. -/
structure Sourced (c : Campaign) (it : Iteration) (files : FileStore) : Prop where
  late : c.config.saveVariants = false → (c.HasSource files it.index ↔
    ∃ report, it.outcome = .ok report ∧ report.records ≠ [])
  saved : c.config.saveVariants = true → ∀ report, it.outcome = .ok report →
    c.HasSource files it.index

section
variable {c : Campaign} {settings : Settings} {o : Outside} {d place : Place} {W : Place → Prop}
  {index : Nat} {b b' : Bench}

theorem Around.lasts (ha : c.Around d W b b') (hp : c.Placed d b.files)
    (hw : ∀ i : Nat, W (d.down (c.sourceName i)) → b.files.Free (c.variantPath i)) :
    c.Lasts b b' := by
  intro i content hread
  by_cases hi : W (d.down (c.sourceName i))
  · exact absurd ⟨content, hread⟩ (not_hasSource (hw i hi))
  · exact FileStore.read_of_node? ((ha.node?_iff hp hi _).mpr (FileStore.read_inv hread))

theorem eq_of_source {i : Nat} (h : d.down (c.sourceName i) = d.down (c.sourceName index)) :
    i = index := c.sourceName_inj (Place.down_inj h)

theorem Sourced.later {it : Iteration} (h : c.Sourced it b.files) (ha : c.Around d W b b')
    (hp : c.Placed d b.files) (hw : ¬ W (d.down (c.sourceName it.index))) :
    c.Sourced it b'.files := by
  have hiff := ha.hasSource_iff hp hw
  exact ⟨fun hsave => hiff.trans (h.late hsave), fun hsave report hreport =>
    hiff.mpr (h.saved hsave report hreport)⟩

variable (hc : c.Equipped settings)
include hc

theorem test_sourced (ho : o.RendersTexts settings) (hp : c.Placed d b.files)
    (hf : b.files.Free (c.variantPath index)) {r : Except Fault TestReport}
    (h : (c.test index).run o b = (r, b')) (before after : Bench) :
    c.Sourced ⟨index, before, after, r⟩ b'.files where
  late hsave := by
    rcases test_source_late hc ho hsave hp hf h with ⟨hsource, hrecords⟩ | ⟨hfree, hnone⟩
    · exact iff_of_true hsource hrecords
    · refine iff_of_false (not_hasSource hfree) ?_
      rintro ⟨report, hr, hrecords⟩
      exact hrecords (hnone report hr)
  saved hsave report hr := by
    obtain rfl : r = .ok report := hr
    exact test_source_saved hc ho hsave hp hf h

/-- Once its variant has been presented, a test writes no source that is there. -/
theorem finish_lasts (hp : c.Placed d b.files)
    (hf : c.config.saveVariants = false → b.files.Free (c.variantPath index)) {variant : Variant}
    {r : Except Fault TestReport} (h : (c.finish index variant).run o b = (r, b')) :
    c.Lasts b b' := by
  cases hsave : c.config.saveVariants with
  | true =>
    have haround : c.Around d (fun _ => False) b b' :=
      (leaves_finish hc hsave index variant).of_run h
    exact haround.lasts hp fun _ hw => hw.elim
  | false =>
    have hleaves : (c.finish index variant).Leaves (c.Around d (· = d.down (c.sourceName index))) :=
      leaves_bind (leaves_examine hc index variant) fun report =>
        leaves_bind (leaves_keepSource hc _ index variant) fun _ => leaves_pure _
    refine (hleaves.of_run h).lasts hp fun i hi => ?_
    rw [eq_of_source hi]
    exact hf hsave

theorem test_lasts (hp : c.Placed d b.files) (hf : b.files.Free (c.variantPath index))
    {r : Except Fault TestReport} (h : (c.test index).run o b = (r, b')) : c.Lasts b b' := by
  refine ((leaves_test (d := d) hc index).of_run h).lasts hp fun i hi => ?_
  rw [eq_of_source hi]
  exact hf

/-- No source is written twice in one test. -/
theorem Iteration.Moment.lasts (hp : c.Placed d b.files) (hf : b.files.Free (c.variantPath index))
    {r : Except Fault TestReport} (h : (c.test index).run o b = (r, b')) {after m : Bench}
    (hafter : c.Lasts b' after) (hm : Iteration.Moment c o ⟨index, b, after, r⟩ m) :
    c.Lasts m after := by
  cases hm with
  | before => exact trans_of c.Lasts (test_lasts hc hp hf h) hafter
  | after => exact refl_of c.Lasts _
  | @presented variant b₁ _ r₁ hgenerate hpresent =>
    refine trans_of c.Lasts ?_ hafter
    dsimp only at hgenerate
    rw [test_eq_finish, run_bind_ok hgenerate] at h
    cases r₁ with
    | error fault =>
      rw [run_bind_error hpresent] at h
      cases h
      exact refl_of c.Lasts _
    | ok _ =>
      rw [run_bind_ok hpresent] at h
      have hgenerated : c.Around d (fun _ => False) b b₁ :=
        around_of_left ((leaves_generate hc index).of_run hgenerate)
      have hindex : variant.index = index := (yields_generate hc index).of_run hgenerate
      have hp₁ := hp.changes (hgenerated.files hp)
      refine finish_lasts hc (d := d) ?_ (fun hsave => ?_) h
      · rw [present_eq, hindex] at hpresent
        have hpresented := (leaves_bind (leaves_showSource hc variant) fun _ =>
          leaves_keepSource (d := d) hc _ index variant).of_run hpresent
        exact hp₁.changes (hpresented.files hp₁)
      · have hpresented : c.Around d (fun _ => False) b₁ m :=
          (leaves_present hc hsave variant).of_run hpresent
        exact hpresented.free hp₁ id (hgenerated.free hp id hf)

def Unsourced (c : Campaign) (index : Nat) (files : FileStore) : Prop :=
  ∀ i : Nat, index ≤ i → files.Free (c.variantPath i)

structure AllSourced (c : Campaign) (o : Outside) (index : Nat) (its : List Iteration) (b : Bench) :
    Prop where
  unsourced : c.Unsourced (index + its.length) b.files
  sourced : ∀ it ∈ its, index ≤ it.index ∧ c.Sourced it b.files
  lasting : ∀ it ∈ its, ∀ m, it.Moment c o m → c.Lasts m b

variable {results results' : ResultsFile} {content : ByteArray}

/-- One step: an iteration makes no source but its own, writes none twice, and then has what it has
come to, also once the clock has been read. -/
theorem recordedTest_sourced (hr : o.RendersTexts settings)
    (ho : c.Open d place results content b.files) (hf : c.Unsourced index b.files)
    {r : Except Fault (ResultsFile × TestReport)} {b₁ : Bench}
    (h : (c.recordedTest index results).run o b = (r, b₁))
    (hsame : c.Around d (fun _ => False) b₁ b') :
    c.Around d (fun p => p = place ∨ p = d.down (c.sourceName index)) b b' ∧
      c.AllSourced o index [⟨index, b, b₁, r.map (·.2)⟩] b' := by
  have hown := hf index (Nat.le_refl _)
  obtain ⟨tested, r', htest, hr', haround, hwrote⟩ : ∃ tested r',
      (c.test index).run o b = (r', tested) ∧ r' = r.map (·.2) ∧
      c.Around d (· = d.down (c.sourceName index)) b tested ∧ c.Around d (· = place) tested b₁ := by
    cases r with
    | error fault =>
      obtain ⟨htest, -⟩ := ho.cut hc h
      exact ⟨b₁, _, htest, rfl, (leaves_test hc index).of_run htest, refl_of (c.Around d _) b₁⟩
    | ok made =>
      obtain ⟨results', report⟩ := made
      obtain ⟨tested, files, htest, rfl, hwritten, -⟩ := ho.done hc h
      exact ⟨tested, _, htest, rfl, (leaves_test hc index).of_run htest,
        fun _ => hwritten, fun _ _ h => h⟩
  have hp := ho.placed.changes (haround.files ho.placed)
  have hlast := trans_of (c.Around d (· = place)) hwrote (hsame.mono fun _ h => h.elim)
  have hall := trans_of (c.Around d fun p => p = place ∨ p = d.down (c.sourceName index))
    (haround.mono fun _ => Or.inr) (hlast.mono fun _ => Or.inl)
  refine ⟨hall, ?_, ?_, ?_⟩
  · intro i hi
    refine hall.free ho.placed ?_ (hf i (Nat.le_of_succ_le hi))
    rintro (he | he)
    · exact ho.ne_source i he.symm
    · have := eq_of_source he
      simp only [List.length_singleton] at hi
      omega
  · refine List.forall_mem_singleton.mpr ⟨Nat.le_refl _, ?_⟩
    rw [← hr']
    exact (test_sourced hc hr ho.placed hown htest _ _).later hlast hp
      fun he => ho.ne_source index he.symm
  · refine List.forall_mem_singleton.mpr fun m hm => ?_
    rw [← hr'] at hm
    have hafter := hwrote.lasts hp fun i he => absurd he.symm (ho.ne_source i)
    refine trans_of c.Lasts (hm.lasts hc ho.placed hown htest hafter) ?_
    exact hsame.lasts (hp.changes (hwrote.files hp)) fun _ hw => hw.elim

/-- No later iteration touches the source of an earlier one. -/
theorem Iterates.sourced (hr : o.RendersTexts settings) {deadline : Option Binary64} {left : Nat}
    {stats stats' : CampaignStats} {its : List Iteration} {ending : Ending}
    (h : c.Iterates o deadline left index results stats b its stats' ending b')
    (ho : c.Open d place results content b.files) (hf : c.Unsourced index b.files) :
    c.Around d (c.OwnPlaces d place index) b b' ∧ c.AllSourced o index its b' := by
  induction h generalizing content with
  | spent => exact ⟨refl_of (c.Around d _) _, hf, List.forall_mem_nil _, List.forall_mem_nil _⟩
  | @cut left index results stats b b' fault h =>
    obtain ⟨haround, hown⟩ := recordedTest_sourced hc hr ho hf h (refl_of (c.Around d _) b')
    exact ⟨haround.mono (own_of_first index), hown⟩
  | @due left index results results' stats stats₁ b b₁ b₂ report h hstats ht =>
    obtain ⟨readings, rfl⟩ := timeUp_bench ht
    have hsame : c.Around d (fun _ => False) b₁ (Bench.showing { b₁.showing
        (progressLine index report stats₁) with readings } c.limitLine) := around_of_same rfl rfl
    obtain ⟨haround, hown⟩ := recordedTest_sourced hc hr ho hf h hsame
    exact ⟨haround.mono (own_of_first index), hown⟩
  | @next left index results results' stats stats₁ stats₂ b b₁ b₂ b' report its ending h hstats ht
      hrest ih =>
    obtain ⟨readings, rfl⟩ := timeUp_bench ht
    obtain ⟨tested, files, -, rfl, -, ho'⟩ := ho.done hc h
    have hsame : c.Around d (fun _ => False) { tested with files }
        { Bench.showing { tested with files } (progressLine index report stats₁) with readings } :=
      around_of_same rfl rfl
    obtain ⟨haround, hown⟩ := recordedTest_sourced hc hr ho hf h hsame
    obtain ⟨hlater, hits⟩ := ih ho' hown.unsourced
    have hp := ho'.placed
    refine ⟨trans_of (c.Around d _) (haround.mono (own_of_first index)) (hlater.mono ?_), ?_, ?_, ?_⟩
    · rintro p (hplace | ⟨j, hj, hsource⟩)
      · exact Or.inl hplace
      · exact Or.inr ⟨j, by omega, hsource⟩
    · intro i hi
      refine hits.unsourced i ?_
      simp only [List.length_cons] at hi
      omega
    · refine List.forall_mem_cons.mpr ⟨⟨Nat.le_refl _, ?_⟩, fun it hit => ?_⟩
      · exact (hown.sourced _ (List.mem_singleton_self _)).2.later hlater hp
          (not_ownPlaces (Nat.lt_succ_self index) (ho.ne_source index))
      · obtain ⟨hindex, hsource⟩ := hits.sourced it hit
        exact ⟨by omega, hsource⟩
    · refine List.forall_mem_cons.mpr ⟨fun m hm => ?_, hits.lasting⟩
      refine trans_of c.Lasts (hown.lasting _ (List.mem_singleton_self _) m hm) ?_
      refine hlater.lasts hp fun i hi => ?_
      rcases hi with he | ⟨j, hj, he⟩
      · exact absurd he.symm (ho.ne_source i)
      · obtain rfl := eq_of_source he
        exact hown.unsourced i hj

omit hc in
def openedFiles (c : Campaign) (o : Outside) (b : Bench) : FileStore :=
  ((ResultsFile.mk c.resultsPath none 0).opened.run o (c.started b)).2.files

theorem Runs.sourced (hr : o.RendersTexts settings) {budget : Nat} {its : List Iteration}
    {r : Except Fault CampaignEnd} (h : c.Runs o budget b its r b')
    (hf : c.Unsourced 0 (c.openedFiles o b)) : c.AllSourced o 0 its b' := by
  have hnone : ∀ {b₁ : Bench}, c.Unsourced 0 b₁.files → c.AllSourced o 0 [] b₁ :=
    fun hf => ⟨hf, List.forall_mem_nil _, List.forall_mem_nil _⟩
  cases h with
  | refused hd =>
    have hgrows : b.files.Grows (c.openedFiles o b) :=
      (leaves_opened (ResultsFile.mk c.resultsPath none 0) o (c.started b)).files
    exact hnone fun i hi => hgrows.free (hf i hi)
  | @made deadline its stats ending b₁ b' r hd h hlast =>
    have hconclude : ∀ d, c.Around d (fun _ => False) b₁ b' := fun d =>
      (leaves_conclude _ _).of_run hlast
    cases h with
    | unopened hopen =>
      rw [openedFiles, hopen] at hf
      have hfiles : b'.files = b₁.files := by
        obtain ⟨r', b₂, hrun, -, hfiles⟩ := @run_conclude o (o.clock b.readings) {} b₁
        cases hlast.symm.trans hrun
        exact hfiles
      exact hnone (hfiles ▸ hf)
    | @opened results b₀ b₁ its stats ending hopen hits =>
      rw [openedFiles, hopen] at hf
      obtain ⟨d, place, files, events, rfl, -, ho⟩ := run_opened_open hc hopen
      obtain ⟨haround, hall⟩ := hits.sourced hc hr ho hf
      have hp := ho.placed.changes (haround.files ho.placed)
      refine ⟨fun i hi => (hconclude d).free hp id (hall.unsourced i hi), fun it hit => ?_,
        fun it hit m hm => trans_of c.Lasts (hall.lasting it hit m hm) ?_⟩
      · exact ⟨Nat.zero_le _, (hall.sourced it hit).2.later (hconclude d) hp id⟩
      · exact (hconclude d).lasts hp fun _ hw => hw.elim

omit hc in
theorem Iteration.Ran.file_eq {it : Iteration} (h : it.Ran c o) {report : TestReport}
    (hreport : it.outcome = .ok report) :
    ∀ record ∈ report.records, record.file = (c.variantPath it.index).text := by
  intro record hrecord
  obtain ⟨tested, t, rfl⟩ := h.made hreport
  exact (origin_of_mem (judge_inv t.judges).1 hrecord).file_eq

/-- The sources in the directory after a run, against the lines in its results file. -/
structure SourceFiles (c : Campaign) (o : Outside) (its : List Iteration) (b b' : Bench) : Prop where
  numbered : its.map (·.index) = List.range its.length
  whole : ∀ it ∈ its.dropLast, ∃ report, it.outcome = .ok report
  added : ∀ place, b'.files.locate c.resultsPath = .ok place →
    b'.files.contentAt place = b.files.contentAt place ++ (linesOf (records its)).toUTF8
  late : c.config.saveVariants = false → ∀ file,
    (∃ i : Nat, (c.variantPath i).text = file ∧ c.HasSource b'.files i) ↔
      ∃ record ∈ records its, record.file = file
  saved : c.config.saveVariants = true → ∀ it ∈ its, ∀ report, it.outcome = .ok report →
    c.HasSource b'.files it.index
  own : ∀ i : Nat, c.HasSource b'.files i → ∃ it ∈ its, it.index = i
  lasting : ∀ it ∈ its, ∀ m, it.Moment c o m → c.Lasts m b'

/-- However a run ends, if nothing was where sources go once its directory and its results file had
been made, then the sources in the directory are the files that its records name, or those of its
iterations if all are to be saved, and none was written twice. -/
theorem sources_match_records (hr : o.RendersTexts settings) (budget : Nat) (b : Bench)
    (hf : c.Unsourced 0 (c.openedFiles o b)) : ∃ its r b', c.Runs o budget b its r b' ∧
      (c.run budget).run o b = (r, b') ∧ c.SourceFiles o its b b' := by
  obtain ⟨its, r, b', hruns, hrun⟩ := run_spec c o budget b
  obtain ⟨hunsourced, hsourced, hlasting⟩ := hruns.sourced hc hr hf
  have hnumbered := hruns.numbered.1
  have hown : ∀ i : Nat, c.HasSource b'.files i → ∃ it ∈ its, it.index = i := by
    intro i hi
    have hlt : i < its.length := by
      by_contra hle
      exact not_hasSource (hunsourced i (by omega)) hi
    have hmem : i ∈ its.map (·.index) := by
      rw [hnumbered]
      exact List.mem_range.mpr hlt
    exact List.mem_map.mp hmem
  refine ⟨its, r, b', hruns, hrun, hnumbered, hruns.numbered.2, (hruns.added hc).2, ?_, ?_, hown,
    hlasting⟩
  · intro hsave file
    constructor
    · rintro ⟨i, rfl, hi⟩
      obtain ⟨it, hit, rfl⟩ := hown i hi
      obtain ⟨report, hreport, hrecords⟩ := ((hsourced it hit).2.late hsave).mp hi
      obtain ⟨record, hrecord⟩ := List.exists_mem_of_ne_nil _ hrecords
      exact ⟨record, mem_records_of hit hreport hrecord,
        (hruns.ran it hit).file_eq hreport record hrecord⟩
    · rintro ⟨record, hrecord, rfl⟩
      obtain ⟨it, hit, report, hreport, hmem⟩ := mem_records hrecord
      refine ⟨it.index, ((hruns.ran it hit).file_eq hreport record hmem).symm, ?_⟩
      exact ((hsourced it hit).2.late hsave).mpr ⟨report, hreport, List.ne_nil_of_mem hmem⟩
  · intro hsave it hit report hreport
    exact (hsourced it hit).2.saved hsave report hreport

end

end Campaign

namespace Sample

theorem locate_variantPath {files : FileStore} {i : Nat} {p : Place}
    (h : files.locate (campaign.variantPath i) = .ok p) :
    p = { absolute := false, names := [campaign.sourceName i] } := by
  refine FileStore.locate_down (fun part hpart => ?_) h
  rw [List.mem_singleton.mp hpart]
  exact campaign.sourceName_ne_dots i

theorem unsourced_opened : campaign.Unsourced 0 (campaign.openedFiles divided benchAlone) := by
  obtain ⟨r, files, events, hopen, -, hfiles⟩ := run_opened (o := divided)
    (b := campaign.started benchAlone) usable_benchAlone.results
  rw [Campaign.openedFiles, hopen]
  intro i hi node hnode
  obtain ⟨p, hlocate, hp⟩ := FileStore.node?_inv hnode
  obtain rfl := locate_variantPath hlocate
  have hne : ({ absolute := false, names := [campaign.sourceName i] } : Place) ≠ resultsPlace := by
    intro he
    have hname : campaign.sourceName i = "c.results.jsonl" :=
      List.singleton_inj.mp (congrArg Place.names he)
    have hchars := congrArg String.toList hname
    simp [Campaign.sourceName, campaign, toString, String.toList_append] at hchars
  rcases hfiles with rfl | rfl
  · cases hp
  · rw [FileStore.at?_put_of_ne _ hne] at hp
    cases hp

end Sample

theorem one_source_for_one_record : ∃ e b',
    (Sample.campaign.run 0).run Sample.divided Sample.benchAlone = (.ok e, b') ∧
    ∀ file, (∃ i : Nat, (Sample.campaign.variantPath i).text = file ∧
      Sample.campaign.HasSource b'.files i) ↔ Sample.sourcePath.text = file := by
  obtain ⟨its, r, b', hruns, hrun, hsources⟩ := Campaign.sources_match_records Sample.equipped
    Sample.divided_renders.texts 0 Sample.benchAlone Sample.unsourced_opened
  obtain ⟨⟨e, rfl⟩, it, rfl, hindex, houtcome, -⟩ :=
    Sample.runs_reported Sample.usable_benchAlone hruns
  refine ⟨e, b', hrun, fun file => (hsources.late rfl file).trans ?_⟩
  have hrecords : Campaign.records [it] = [Sample.record] := by
    simp [Campaign.records, Campaign.reports, houtcome, Except.toOption]
  simp only [hrecords, List.mem_singleton, exists_eq_left]
  rfl

namespace Sample

/-! ## A directory where a source goes -/

/-- The working directory, by way of a directory with the name of the first source. -/
def roundabout : Path := ⟨"", ["c.variant.0.sol", ".."]⟩

def openedAround : FileStore := ⟨[(sourcePlace, .directory), (resultsPlace, .file .empty)]⟩

theorem unsourced_roundabout : (campaignIn roundabout).Unsourced 0 benchAlone.files := by
  intro i hi node hnode
  obtain ⟨p, hlocate, -⟩ := FileStore.node?_inv hnode
  have hwalk := (FileStore.locate_inv hlocate).2
  cases hwalk

theorem run_opened_around : ∃ results b₀,
    (ResultsFile.mk (campaignIn roundabout).resultsPath none 0).opened.run divided
      ((campaignIn roundabout).started benchAlone) = (.ok results, b₀) ∧ b₀.files = openedAround :=
  ⟨_, _, rfl, rfl⟩

theorem locate_first : openedAround.locate ((campaignIn roundabout).variantPath 0) =
    .ok sourcePlace := rfl

theorem reachable_around : Reachable roundabout openedAround := ⟨rfl, sourcePlace, locate_first⟩

theorem unused_around : openedAround.Unused Machine.scratchPlace := by
  intro n hn
  rcases List.mem_pair.mp hn with rfl | rfl <;> rfl

theorem variantPath_inj {i : Nat} (h : ((campaignIn roundabout).variantPath i).text =
    ((campaignIn roundabout).variantPath 0).text) : i = 0 := by
  have htext : ∀ j : Int, ((campaignIn roundabout).variantPath j).text =
      "c.variant.0.sol/../" ++ (campaignIn roundabout).sourceName j := fun j => rfl
  rw [htext, htext, String.append_right_inj] at h
  exact (campaignIn roundabout).sourceName_inj h

/-- The directory stays where the source would go. -/
theorem around_has_no_source {its : List Campaign.Iteration} {stats : CampaignStats}
    {ending : Campaign.Ending} {b₁ : Bench}
    (h : (campaignIn roundabout).Proceeds divided 0 none benchAlone its stats ending b₁) :
    ¬ (campaignIn roundabout).HasSource b₁.files 0 := by
  rintro ⟨content, hread⟩
  obtain ⟨results, b₀, hopen, hfiles⟩ := run_opened_around
  cases h with
  | unopened h => cases hopen.symm.trans h
  | opened h hits =>
    cases hopen.symm.trans h
    obtain ⟨d, place, files, events, rfl, -, ho⟩ :=
      Campaign.run_opened_open (equippedIn roundabout) h
    obtain rfl : files = openedAround := hfiles
    obtain ⟨haround, -⟩ := hits.kept (equippedIn roundabout) divided_renders ho
    have hchanges := haround.files ho.placed
    have hthere := hchanges.directory (FileStore.locate_reached locate_first) (by rfl)
    obtain ⟨p, hlocate, hp⟩ := FileStore.node?_inv (FileStore.read_inv hread)
    cases hlocate.symm.trans (hchanges.locate locate_first)
    cases hp.symm.trans hthere

end Sample

/-- That no file has the name of a source at first is not enough: a run that makes its directory can
put a directory there. -/
theorem directory_taken_for_source : ¬ ∀ {c : Campaign} {settings : Settings} {o : Outside},
    c.Equipped settings → o.RendersTexts settings → ∀ {budget : Nat} {b b' : Bench}
    {its : List Campaign.Iteration} {r : Except Fault Campaign.CampaignEnd},
    c.Unsourced 0 b.files → c.Runs o budget b its r b' → c.config.saveVariants = false → ∀ file,
    (∃ i : Nat, (c.variantPath i).text = file ∧ c.HasSource b'.files i) ↔
      ∃ record ∈ Campaign.records its, record.file = file := by
  intro h
  obtain ⟨its, r, b', hruns, -⟩ := Campaign.run_spec (Sample.campaignIn Sample.roundabout)
    Sample.divided 0 Sample.benchAlone
  have hiff := h (Sample.equippedIn Sample.roundabout) Sample.divided_renders.texts
    Sample.unsourced_roundabout hruns rfl
    ((Sample.campaignIn Sample.roundabout).variantPath 0).text
  cases hruns with
  | refused hd => cases hd
  | @made deadline its stats ending b₁ b' r hd hproceeds hlast =>
    cases hd
    obtain ⟨results, b₀, hopen, hfiles⟩ := Sample.run_opened_around
    obtain ⟨-, it, rfl, -, -, houtcome⟩ := Sample.reportedIn hopen rfl rfl
      (hfiles ▸ Sample.unused_around) (by decide) (by decide) (hfiles ▸ Sample.reachable_around)
      hproceeds
    obtain ⟨i, hpath, hsource⟩ := hiff.mpr ⟨_, by
      rw [Campaign.records, Campaign.reports]
      simp only [List.filterMap_cons, houtcome]
      exact List.mem_singleton_self _, rfl⟩
    obtain rfl := Sample.variantPath_inj hpath
    refine Sample.around_has_no_source hproceeds ?_
    obtain ⟨r', b₂, hrun, -, hsame⟩ := @run_conclude Sample.divided _ stats b₁
    cases hlast.symm.trans hrun
    exact hsame ▸ hsource

end BackendFuzz
