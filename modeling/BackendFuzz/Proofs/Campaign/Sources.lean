import BackendFuzz.Proofs.Campaign.Iterations
import BackendFuzz.Proofs.Divergence.Origins

/-!
# Sources of variants

The records of a test name the file for its variant. Unless something is there
already, the file holds what the first backend's version of the variant is
rendered as, from the test on until the campaign ends; what was there is never
written over.
-/

namespace BackendFuzz

open Session

/-! ## Rendering -/

/-- Whenever the engine renders a tree for a version, it gives the same text, which has no lone
surrogates. -/
def Outside.Renders (o : Outside) (settings : Settings) (source : SyntaxTree → String → String) :
    Prop :=
  ∀ tree version b value, ((Engine.render settings tree version).run o b).1 = .ok value →
    value = .text (source tree version) ∧ Text.Scalar (source tree version)

theorem CompilerVersion.query_known {settings : Settings} {path version : String} {o : Outside}
    {b b' : Bench} (h : (query settings path).run o b = (.ok version, b')) :
    b'.memory.versions.lookup path = some version := by
  unfold query at h
  rw [run_bind_ok (run_get o b)] at h
  cases hl : b.memory.versions.lookup path with
  | some known =>
    rw [hl] at h
    cases h
    exact hl
  | none =>
    have hlast : ∀ (v : String) (b₁ : Bench), b₁.memory = b.memory → (do
        Session.debug .eofCompiler s!"Resolved compiler version {path} => {v}"
        modify fun b => { b with memory :=
          { b.memory with versions := b.memory.versions ++ [(path, v)] } }
        return v : Session String).run o b₁ = (.ok version, b') →
          b'.memory.versions.lookup path = some version := by
      intro v b₁ hm h
      cases h
      simp [List.lookup_append, hm, hl]
    rw [hl] at h
    dsimp only at h
    rw [run_bind_ok (run_note o b _), run_bind_ok (run_read o _)] at h
    cases hreply : o.eofVersion b.asked with
    | ended ended =>
      rw [hreply] at h
      dsimp only at h
      cases ht : told? ended with
      | some told =>
        rw [ht] at h
        dsimp only at h
        rw [pure_bind] at h
        refine hlast _ _ ?_ h
        rfl
      | none =>
        rw [ht] at h
        dsimp only [unknown] at h
        rw [run_bind_ok (run_debug o _ _ _), pure_bind] at h
        refine hlast _ _ ?_ h
        rfl
    | timedOut | missing =>
      rw [hreply] at h
      dsimp only [unknown] at h
      rw [run_bind_ok (run_debug o _ _ _), pure_bind] at h
      refine hlast _ _ ?_ h
      rfl
    | denied | interrupted =>
      rw [hreply] at h
      cases h

namespace Campaign

def firstVersion? (c : Campaign) (settings : Settings) (b : Bench) : Option String :=
  if c.first.isEof then b.memory.versions.lookup settings.solcPath else some c.first.version

def IsSource (c : Campaign) (settings : Settings) (source : SyntaxTree → String → String) (b : Bench)
    (variant : Variant) (content : ByteArray) : Prop :=
  ∃ version, c.firstVersion? settings b = some version ∧
    Text.encode (source variant.tree version) = .ok content

section
variable {c : Campaign} {settings : Settings} {source : SyntaxTree → String → String} {o : Outside}
  {d : Place} {W : Place → Prop} {variant : Variant} {index : Int} {b b' : Bench}

theorem IsSource.around {content : ByteArray} (h : c.IsSource settings source b variant content)
    (ha : c.Around d W b b') : c.IsSource settings source b' variant content := by
  obtain ⟨version, hv, hcontent⟩ := h
  refine ⟨version, ?_, hcontent⟩
  unfold firstVersion? at hv ⊢
  split at hv
  · rename_i heof
    rw [if_pos heof]
    exact ha.versions _ _ hv
  · rename_i heof
    rw [if_neg heof, hv]

theorem renderFirst_inv (hc : c.Equipped settings) (hr : o.Renders settings source) {value : Json}
    (h : (c.renderFirst variant).run o b = (.ok value, b')) : ∃ version text,
      c.firstVersion? settings b' = some version ∧ value = .text text ∧
      text = source variant.tree version ∧ Text.Scalar text := by
  obtain ⟨user, hrender, -⟩ := hc.compiles
  rw [renderFirst, hrender] at h
  obtain ⟨version, b₁, hresolve, h⟩ := run_bind_ok_inv h
  obtain ⟨hvalue, hscalar⟩ := hr variant.tree version b₁ value (by rw [h])
  refine ⟨version, _, ?_, hvalue, rfl, hscalar⟩
  have hversions := ((Engine.leaves_render settings variant.tree version
    (F := fun _ _ => True)).of_run h).versions
  unfold CompilerVersion.resolve at hresolve
  unfold firstVersion?
  split at hresolve
  · rename_i heof
    rw [if_pos heof]
    exact hversions _ _ (CompilerVersion.query_known hresolve)
  · rename_i heof
    cases hresolve
    rw [if_neg heof]

/-! ## Keeping -/

/-- How the file for a variant stands, given what was there at first. -/
structure Kept (c : Campaign) (settings : Settings) (source : SyntaxTree → String → String)
    (d : Place) (index : Int) (variant : Variant) (start : FileStore) (b : Bench) : Prop where
  located : b.files.locate (c.variantPath index) = .ok (d.down (c.sourceName index))
  fresh : start.at? (d.down (c.sourceName index)) = none →
    ∃ content, c.IsSource settings source b variant content ∧
      b.files.at? (d.down (c.sourceName index)) = some (.file content)
  taken : ∀ node, start.at? (d.down (c.sourceName index)) = some node →
    b.files.at? (d.down (c.sourceName index)) = some node

theorem Kept.around {start : FileStore} (h : c.Kept settings source d index variant start b)
    (hp : c.Placed d b.files) (ha : c.Around d W b b') (hw : ¬ W (d.down (c.sourceName index))) :
    c.Kept settings source d index variant start b' := by
  have hfiles := ha.files hp
  have hat := hfiles.at? (hp.reached (c.sourceName index)) hw
  refine ⟨hfiles.locate h.located, fun hn => ?_, fun node hs => ?_⟩
  · obtain ⟨content, hcontent, hfile⟩ := h.fresh hn
    exact ⟨content, hcontent.around ha, hat.trans hfile⟩
  · exact hat.trans (h.taken node hs)

theorem Kept.from {start start' : FileStore} (h : c.Kept settings source d index variant start b)
    (he : start.at? (d.down (c.sourceName index)) = start'.at? (d.down (c.sourceName index))) :
    c.Kept settings source d index variant start' b :=
  ⟨h.located, fun hn => h.fresh (he.trans hn), fun node hs => h.taken node (he.trans hs)⟩

variable (hc : c.Equipped settings)
include hc

theorem keepSource_kept (hr : o.Renders settings source) (hp : c.Placed d b.files)
    (h : (c.keepSource true index variant).run o b = (.ok (), b')) :
    c.Kept settings source d index variant b.files b' := by
  obtain ⟨value, b₁, hrendered, h⟩ := run_bind_ok_inv h
  obtain ⟨saved, b₂, hsaved, h⟩ := run_bind_ok_inv h
  cases h
  have haround : c.Around d (fun _ => False) b b₁ :=
    around_of_left ((leaves_renderFirst hc variant).of_run hrendered)
  have hp₁ := hp.changes (haround.files hp)
  have hat := (haround.files hp).at? (hp.reached (c.sourceName index)) id
  obtain ⟨version, text, hversion, rfl, htext, -⟩ := renderFirst_inv hc hr hrendered
  have hstored := run_saveVariant (c := c) index (.text text) o hp₁
  have hsave : c.Around d (· = d.down (c.sourceName index)) b₁ b' :=
    (leaves_saveVariant_around index (.text text)).of_run hsaved
  have hplace : ∀ p, b₁.files.locate (c.variantPath index) = .ok p →
      p = d.down (c.sourceName index) ∧
        b'.files.locate (c.variantPath index) = .ok (d.down (c.sourceName index)) := by
    intro p hl
    obtain rfl := FileStore.locate_child (c.sourceName_ne_dots index) hp₁.locate hl
    exact ⟨rfl, (hsave.files hp₁).locate hl⟩
  rw [hsaved] at hstored
  generalize hfiles : b'.files = files at hstored
  cases hstored with
  | taken hl hn =>
    obtain ⟨rfl, hlocated⟩ := hplace _ hl
    rw [hat] at hn
    refine ⟨hlocated, fun hnone => ?_, fun node hs => ?_⟩
    · rw [hn] at hnone
      cases hnone
    · rw [hfiles, hat, hs]
  | @kept p text' content hl hn hs he =>
    obtain ⟨rfl, hlocated⟩ := hplace _ hl
    rw [hat] at hn
    cases hs
    refine ⟨hlocated, fun _ => ⟨content, ?_, ?_⟩, fun node hs => ?_⟩
    · exact IsSource.around ⟨version, hversion, htext ▸ he⟩ hsave
    · rw [hfiles, FileStore.at?_put_self _ (FileStore.names_ne_nil_of_absent hn)]
    · rw [hn] at hs
      cases hs

/-- A test with records keeps the source of its variant once, and nothing else is done to the file. -/
theorem Made.kept (t : c.Made o index b b') (hr : o.Renders settings source)
    (hp : c.Placed d b.files) (hrecords : t.report.records ≠ []) :
    c.Kept settings source d index t.variant b.files b' := by
  have hindex : t.variant.index = index :=
    (yields_generate hc index).of_run t.generates
  have hgenerated : c.Around d (fun _ => False) b t.generated :=
    around_of_left ((leaves_generate hc index).of_run t.generates)
  have hplanned : c.Around d (fun _ => False) t.presented t.planned :=
    around_of_left ((leaves_planFor t.variant).of_run t.plans)
  have htried : c.Around d (fun _ => False) t.planned t.tried :=
    around_of_left (((leaves_tryBackends hc t.variant t.plan).of_run t.tries).mono (fun _ => id)
      fun _ _ => FileStore.Swept.changes)
  have hjudged : c.Around d (fun _ => False) t.tried t.judged :=
    around_of_left ((leaves_judge index t.plan t.results).of_run t.judges)
  have hafter := trans_of (c.Around d fun _ => False) hplanned (trans_of _ htried hjudged)
  have hpresents := t.presents
  have hkeeps := t.keeps
  rw [present_eq, hindex] at hpresents
  obtain ⟨_, shown, hshows, hpresents⟩ := run_bind_ok_inv hpresents
  have hshown := trans_of (c.Around d fun _ => False) hgenerated
    ((leaves_showSource hc t.variant).of_run hshows)
  cases hsave : c.config.saveVariants with
  | true =>
    rw [hsave] at hpresents
    have hp₁ := hp.changes (hshown.files hp)
    have hkept := keepSource_kept hc hr hp₁ hpresents
    have hp₂ := hp₁.changes (((leaves_keepSource hc true index t.variant).of_run hpresents).files hp₁)
    have hlate : c.keptLate t.report = false := by simp [keptLate, hsave]
    rw [hlate] at hkeeps
    have hend : t.judged = b' := congrArg Prod.snd hkeeps
    rw [hend] at hafter
    refine (hkept.from ?_).around hp₂ hafter id
    exact (hshown.files hp).at? (hp.reached _) id
  | false =>
    rw [hsave] at hpresents
    cases hpresents
    have hbefore := trans_of (c.Around d fun _ => False) hshown hafter
    have hlate : c.keptLate t.report = true := by simp [keptLate, hsave, hrecords]
    rw [hlate] at hkeeps
    refine (keepSource_kept hc hr (hp.changes (hbefore.files hp)) hkeeps).from ?_
    exact (hbefore.files hp).at? (hp.reached _) id

omit hc in
theorem around_of_same (hf : b'.files = b.files) (hm : b'.memory = b.memory) :
    c.Around d W b b' := by
  refine ⟨fun _ => ?_, fun path version hv => by rw [hm, hv]⟩
  rw [hf]
  exact refl_of (FileStore.Changes W) b.files

omit hc in
theorem leaves_conclude (start : Binary64) (stats : CampaignStats) :
    (conclude start stats).Leaves (c.Around d W) := by
  have hsame : ∀ f : Bench → Bench, (∀ b, (f b).files = b.files ∧ (f b).memory = b.memory) →
      (modify f : Session Unit).Leaves (c.Around d W) := fun f hf =>
    leaves_modify fun b => around_of_same (hf b).1 (hf b).2
  have hclock : readClock.Leaves (c.Around d W) :=
    leaves_bind leaves_get fun b => leaves_bind (hsame _ fun _ => ⟨rfl, rfl⟩) fun _ =>
      leaves_bind leaves_read fun _ => leaves_pure _
  refine leaves_bind hclock fun now => ?_
  dsimp only
  split
  · split <;> exact leaves_throw _
  · exact leaves_bind (hsame _ fun _ => ⟨rfl, rfl⟩) fun _ => hsame _ fun _ => ⟨rfl, rfl⟩

/-! ## Sources of all tests -/

def OwnPlaces (c : Campaign) (d place : Place) (index : Nat) (p : Place) : Prop :=
  p = place ∨ ∃ j : Nat, index ≤ j ∧ p = d.down (c.sourceName j)

def SourceKept (c : Campaign) (settings : Settings) (source : SyntaxTree → String → String)
    (o : Outside) (d : Place) (start : FileStore) (b : Bench) (it : Iteration) : Prop :=
  ∀ report, it.outcome = .ok report → ∃ variant generated,
    (c.tools.generate it.index).run o it.before = (.ok variant, generated) ∧
    (∀ record ∈ report.records, record.file = (c.variantPath it.index).text) ∧
    (report.records ≠ [] → c.Kept settings source d it.index variant start it.after ∧
      b.files.locate (c.variantPath it.index) = .ok (d.down (c.sourceName it.index)) ∧
      b.files.at? (d.down (c.sourceName it.index)) =
        it.after.files.at? (d.down (c.sourceName it.index)))

omit hc in
theorem SourceKept.later {start : FileStore} {it : Iteration}
    (h : c.SourceKept settings source o d start b it) (hp : c.Placed d b.files)
    (ha : c.Around d W b b') (hw : ¬ W (d.down (c.sourceName it.index))) :
    c.SourceKept settings source o d start b' it := by
  intro report hreport
  obtain ⟨variant, generated, hgenerated, hfile, hkept⟩ := h report hreport
  refine ⟨variant, generated, hgenerated, hfile, fun hrecords => ?_⟩
  obtain ⟨hafter, hlocated, hat⟩ := hkept hrecords
  have hfiles := ha.files hp
  exact ⟨hafter, hfiles.locate hlocated, (hfiles.at? (hp.reached _) hw).trans hat⟩

omit hc in
theorem SourceKept.from {start start' : FileStore} {it : Iteration}
    (h : c.SourceKept settings source o d start b it)
    (he : start.at? (d.down (c.sourceName it.index)) = start'.at? (d.down (c.sourceName it.index))) :
    c.SourceKept settings source o d start' b it := by
  intro report hreport
  obtain ⟨variant, generated, hgenerated, hfile, hkept⟩ := h report hreport
  exact ⟨variant, generated, hgenerated, hfile, fun hrecords =>
    ⟨(hkept hrecords).1.from he, (hkept hrecords).2⟩⟩

omit hc in
theorem own_of_first {place : Place} (index : Nat) (p : Place)
    (h : p = place ∨ p = d.down (c.sourceName index)) : c.OwnPlaces d place index p :=
  h.imp_right fun hp => ⟨index, Nat.le_refl _, hp⟩

omit hc in
theorem not_ownPlaces {index j : Nat} (hj : j < index) {place : Place}
    (hplace : place ≠ d.down (c.sourceName j)) :
    ¬ c.OwnPlaces d place index (d.down (c.sourceName j)) := by
  rintro (he | ⟨k, hk, he⟩)
  · exact hplace he.symm
  · have := c.sourceName_inj (Place.down_inj he)
    omega

variable {place : Place} {content : ByteArray} {results results' : ResultsFile}

/-- One step: the source of this iteration is kept, and no other file but the results file changes. -/
theorem iteration_kept (hr : o.Renders settings source) {index : Nat} {report : TestReport}
    (ho : c.Open d place results content b.files)
    (h : (c.recordedTest index results).run o b = (.ok (results', report), b')) :
    c.Around d (fun p => p = place ∨ p = d.down (c.sourceName index)) b b' ∧
      c.SourceKept settings source o d b.files b' ⟨index, b, b', .ok report⟩ := by
  obtain ⟨tested, files, htest, rfl, hwritten, ho'⟩ := ho.done hc h
  have haround : c.Around d (· = d.down (c.sourceName index)) b tested :=
    (leaves_test hc index).of_run htest
  have hwrote : c.Around d (· = place) tested { tested with files } :=
    ⟨fun _ => hwritten, fun _ _ h => h⟩
  refine ⟨trans_of (c.Around d _) (haround.mono fun _ => Or.inr) (hwrote.mono fun _ => Or.inl), ?_⟩
  rintro _ ⟨⟩
  obtain ⟨t, rfl⟩ := made_of_run htest
  refine ⟨t.variant, t.generated, t.generates, fun record hrecord => ?_, fun hrecords => ?_⟩
  · exact (origin_of_mem (judge_inv t.judges).1 hrecord).file_eq
  · have hkept := t.kept hc hr ho.placed hrecords
    have hkept' := hkept.around (ho.placed.changes (haround.files ho.placed)) hwrote
      fun he => ho.ne_source index he.symm
    exact ⟨hkept', hkept'.located, rfl⟩

/-- No later iteration touches the source of an earlier one. -/
theorem Iterates.kept (hr : o.Renders settings source) {deadline : Option Binary64}
    {left index : Nat} {stats stats' : CampaignStats} {its : List Iteration} {ending : Ending}
    (h : c.Iterates o deadline left index results stats b its stats' ending b')
    (ho : c.Open d place results content b.files) :
    c.Around d (c.OwnPlaces d place index) b b' ∧
      ∀ it ∈ its, index ≤ it.index ∧ c.SourceKept settings source o d b.files b' it := by
  induction h generalizing content with
  | spent => exact ⟨refl_of (c.Around d _) _, by simp⟩
  | @cut left index results stats b b' fault h =>
    have haround := (leaves_test (d := d) hc index).of_run (ho.cut hc h).1
    refine ⟨haround.mono fun p hp => Or.inr ⟨index, Nat.le_refl _, hp⟩, ?_⟩
    simp [SourceKept]
  | @due left index results results' stats stats₁ b b₁ b₂ report h hstats ht =>
    obtain ⟨haround, hkept⟩ := iteration_kept hc hr ho h
    obtain ⟨readings, rfl⟩ := timeUp_bench ht
    have hlast : c.Around d (fun _ => False) b₁ (Bench.showing { b₁.showing
        (progressLine index report stats₁) with readings } c.limitLine) := around_of_same rfl rfl
    have hp := ho.placed.changes (haround.files ho.placed)
    refine ⟨trans_of (c.Around d _) (haround.mono (own_of_first index))
      (hlast.mono fun _ h => h.elim), ?_⟩
    · intro it hit
      obtain rfl := List.mem_singleton.mp hit
      exact ⟨Nat.le_refl _, hkept.later hp hlast id⟩
  | @next left index results results' stats stats₁ stats₂ b b₁ b₂ b' report its ending h hstats ht
      hrest ih =>
    obtain ⟨haround, hkept⟩ := iteration_kept hc hr ho h
    obtain ⟨readings, rfl⟩ := timeUp_bench ht
    obtain ⟨tested, files, -, hb₁, -, ho'⟩ := ho.done hc h
    have hfiles : b₁.files = files := by rw [hb₁]
    generalize hb₂ : ({ b₁.showing (progressLine index report stats₁) with readings } : Bench) = b₂
      at hrest ih
    have hsame : c.Around d (fun _ => False) b₁ b₂ :=
      around_of_same (by rw [← hb₂]; rfl) (by rw [← hb₂]; rfl)
    have ho₂ : c.Open d place results' (content ++ (linesOf report.records).toUTF8) b₂.files := by
      rw [← hb₂]
      exact hfiles ▸ ho'
    have hp₁ : c.Placed d b₁.files := hfiles ▸ ho'.placed
    obtain ⟨hlater, hits⟩ := ih ho₂
    have hfirst := trans_of (c.Around d _) haround
      (hsame.mono fun _ h => h.elim)
    refine ⟨trans_of (c.Around d _) (hfirst.mono (own_of_first index)) (hlater.mono ?_), ?_⟩
    · rintro p (hplace | ⟨j, hj, hsource⟩)
      · exact Or.inl hplace
      · exact Or.inr ⟨j, by omega, hsource⟩
    · intro it hit
      rcases List.mem_cons.mp hit with rfl | hit
      · refine ⟨Nat.le_refl _, (hkept.later hp₁ hsame id).later ho₂.placed hlater ?_⟩
        exact not_ownPlaces (Nat.lt_succ_self index) (ho.ne_source index)
      · obtain ⟨hindex, hsource⟩ := hits it hit
        refine ⟨by omega, hsource.from ?_⟩
        refine (hfirst.files ho.placed).at? (ho.placed.reached _) ?_
        rintro (he | he)
        · exact ho.ne_source it.index he.symm
        · have := c.sourceName_inj (Place.down_inj he)
          omega

/-- Where the first test begins, the directory is there; what it has for a source then decides. -/
theorem Proceeds.kept (hr : o.Renders settings source) {budget : Nat} {deadline : Option Binary64}
    {its : List Iteration} {stats : CampaignStats} {ending : Ending}
    (h : c.Proceeds o budget deadline b its stats ending b') {first : Iteration}
    (hfirst : its.head? = some first) : ∃ d, b.files.Grows first.before.files ∧
      c.Placed d first.before.files ∧ c.Placed d b'.files ∧
      ∀ it ∈ its, c.SourceKept settings source o d first.before.files b' it := by
  cases h with
  | unopened h => cases hfirst
  | @opened results b₀ b' its stats ending hopen hits =>
    obtain ⟨d, place, files, events, hb₀, hgrows, ho⟩ := run_opened_open hc hopen
    obtain rfl := hits.head hfirst
    have hfiles : first.before.files = files := by rw [hb₀]
    rw [← hfiles] at ho hgrows
    obtain ⟨haround, hkept⟩ := hits.kept hc hr ho
    exact ⟨d, hgrows, ho.placed, ho.placed.changes (haround.files ho.placed),
      fun it hit => (hkept it hit).2⟩

end

end Campaign

section
variable {c : Campaign} {settings : Settings} {source : SyntaxTree → String → String} {o : Outside}

open Campaign

/-- Every record of a test names the file for its variant. If nothing is there when the tests
begin, then from that test on the file holds what its variant is rendered as for the first backend;
whatever is there stays as it is. -/
theorem sources_kept_unless_taken (hc : c.Equipped settings) (hr : o.Renders settings source)
    (budget : Nat) (b : Bench) : ∃ its r b', c.Runs o budget b its r b' ∧
      (c.run budget).run o b = (r, b') ∧
      ∀ first, its.head? = some first → b.files.Grows first.before.files ∧
        ∀ it ∈ its, ∀ report, it.outcome = .ok report → ∃ variant generated,
          (c.tools.generate it.index).run o it.before = (.ok variant, generated) ∧
          ∀ record ∈ report.records, record.file = (c.variantPath it.index).text ∧
            (first.before.files.node? (c.variantPath it.index) = .ok none →
              ∃ content, c.IsSource settings source it.after variant content ∧
                it.after.files.read (c.variantPath it.index) = .ok content ∧
                b'.files.read (c.variantPath it.index) = .ok content) ∧
            ∀ node, first.before.files.node? (c.variantPath it.index) = .ok (some node) →
              it.after.files.node? (c.variantPath it.index) = .ok (some node) ∧
              b'.files.node? (c.variantPath it.index) = .ok (some node) := by
  obtain ⟨its, r, b', hruns, hrun⟩ := run_spec c o budget b
  refine ⟨its, r, b', hruns, hrun, fun first hfirst => ?_⟩
  obtain ⟨d, b₁, hgrows, hp, hp₁, hkept, hlast⟩ : ∃ d b₁, b.files.Grows first.before.files ∧
      c.Placed d first.before.files ∧ c.Placed d b₁.files ∧
      (∀ it ∈ its, c.SourceKept settings source o d first.before.files b₁ it) ∧
      c.Around d (fun _ => False) b₁ b' := by
    cases hruns with
    | refused hd => cases hfirst
    | @made deadline _ stats ending b₁ _ r hd h hlast =>
      obtain ⟨d, hgrows, hp, hp₁, hkept⟩ := h.kept hc hr hfirst
      exact ⟨d, b₁, hgrows, hp, hp₁, hkept, (leaves_conclude _ _).of_run hlast⟩
  refine ⟨hgrows, fun it hit report hreport => ?_⟩
  obtain ⟨variant, generated, hgenerated, hfile, hsource⟩ :=
    ((hkept it hit).later hp₁ hlast id) report hreport
  refine ⟨variant, generated, hgenerated, fun record hrecord => ⟨hfile record hrecord, ?_⟩⟩
  obtain ⟨hafter, hlocated, hat⟩ := hsource (List.ne_nil_of_mem hrecord)
  have hnode := FileStore.node?_of_locate (hp.locate_child (hp₁.changes (hlast.files hp₁))
    (c.sourceName_ne_dots it.index) hlocated).2
  refine ⟨fun hnone => ?_, fun node hthere => ?_⟩
  · obtain ⟨content, hcontent, hfile⟩ := hafter.fresh (Except.ok.inj (hnode.symm.trans hnone))
    exact ⟨content, hcontent, FileStore.read_of_locate hafter.located hfile,
      FileStore.read_of_locate hlocated (hat.trans hfile)⟩
  · have hkept := hafter.taken node (Except.ok.inj (hnode.symm.trans hthere))
    rw [FileStore.node?_of_locate hafter.located, FileStore.node?_of_locate hlocated, hat, hkept]
    exact ⟨rfl, rfl⟩

end

namespace Sample

theorem divided_renders : divided.Renders {} fun _ _ => "x" := by
  intro tree version b value h
  obtain ⟨r, hcall⟩ := @Engine.run_call divided b {} rendered .render
    [("ast", tree.unit), ("version", .text version)] rfl
  rw [checkReply_rendered] at hcall
  rw [Engine.render, run_bind_ok hcall] at h
  cases h
  have hscalar : ∀ n ∈ Text.points "x".toList, Text.isSurrogate n = false := by decide
  exact ⟨rfl, hscalar⟩

theorem content_eq {b : Bench} {v : Variant} {content : ByteArray}
    (h : campaign.IsSource {} (fun _ _ => "x") b v content) : content = "x".toUTF8 := by
  obtain ⟨version, -, hcontent⟩ := h
  have hencode : Text.encode "x" = .ok "x".toUTF8 := Text.encode_of_low (by simp)
  exact Except.ok.inj (hcontent.symm.trans hencode)

end Sample

theorem source_kept_for_one_record : ∃ e b',
    (Sample.campaign.run 0).run Sample.divided Sample.benchAlone = (.ok e, b') ∧
    Sample.record.file = Sample.sourcePath.text ∧
    b'.files.read Sample.sourcePath = .ok "x".toUTF8 := by
  obtain ⟨its, r, b', hruns, hrun, hkept⟩ := sources_kept_unless_taken Sample.equipped
    Sample.divided_renders 0 Sample.benchAlone
  obtain ⟨⟨e, rfl⟩, it, rfl, hindex, houtcome, hfiles⟩ :=
    Sample.runs_reported Sample.usable_benchAlone hruns
  refine ⟨e, b', hrun, ?_⟩
  obtain ⟨-, hits⟩ := hkept it rfl
  obtain ⟨variant, generated, -, hrecords⟩ := hits it (List.mem_singleton_self it) _ houtcome
  obtain ⟨hfile, hfresh, -⟩ := hrecords _ (List.mem_singleton_self _)
  have hpath : Sample.campaign.variantPath it.index = Sample.sourcePath := by
    rw [hindex]
    decide
  have hnone : it.before.files.node? Sample.sourcePath = .ok none := by
    rw [FileStore.node?_of_locate (Sample.locate_source _)]
    rcases hfiles with hfiles | hfiles
    · rw [hfiles]
      rfl
    · rw [hfiles, FileStore.at?_put_of_ne _ (by decide)]
      rfl
  rw [hpath] at hfresh
  obtain ⟨content, hcontent, -, hread⟩ := hfresh hnone
  rw [Sample.content_eq hcontent] at hread
  exact ⟨rfl, hread⟩

/-- The file that a record names does not always hold the source of its variant. -/
theorem taken_source_not_replaced : ¬ ∀ {c : Campaign} {settings : Settings}
    {source : SyntaxTree → String → String} {o : Outside}, c.Equipped settings →
    o.Renders settings source → ∀ {budget : Nat} {deadline : Option Binary64} {b b₁ : Bench}
    {its : List Campaign.Iteration} {stats : CampaignStats} {ending : Campaign.Ending},
    Campaign.deadlineFrom (o.clock b.readings) c.config.timeLimitMs = .ok deadline →
    c.Proceeds o budget deadline b its stats ending b₁ →
    ∀ it ∈ its, ∀ report, it.outcome = .ok report → ∃ variant generated,
      (c.tools.generate it.index).run o it.before = (.ok variant, generated) ∧
      ∀ record ∈ report.records, record.file = (c.variantPath it.index).text ∧
        ∃ content, c.IsSource settings source it.after variant content ∧
          it.after.files.read (c.variantPath it.index) = .ok content := by
  intro h
  obtain ⟨its, stats, ending, b₁, hproceeds, -⟩ := Campaign.run_proceeds (o := Sample.divided)
    Sample.campaign 0 Sample.benchWithSource (rfl : Campaign.deadlineFrom _ _ = .ok none)
  obtain ⟨-, it, rfl, hindex, houtcome, hfiles⟩ :=
    Sample.reported Sample.usable_benchWithSource hproceeds
  have hmem : it ∈ [it] := List.mem_singleton_self it
  have hpath : Sample.campaign.variantPath it.index = Sample.sourcePath := by
    rw [hindex]
    decide
  obtain ⟨variant, generated, -, hrecords⟩ := h Sample.equipped Sample.divided_renders rfl
    hproceeds it hmem _ houtcome
  obtain ⟨-, content, hcontent, hread⟩ := hrecords _ (List.mem_singleton_self _)
  obtain ⟨d, -, hp, -, hkept⟩ := hproceeds.kept Sample.equipped Sample.divided_renders rfl
  obtain ⟨variant', generated', -, -, hsource⟩ := hkept it hmem _ houtcome
  obtain ⟨hafter, -⟩ := hsource (List.cons_ne_nil _ _)
  have hplace : d.down (Sample.campaign.sourceName it.index) = Sample.sourcePlace := by
    have hlocated := hafter.located
    rw [hpath, Sample.locate_source] at hlocated
    exact (Except.ok.inj hlocated).symm
  have htaken := hafter.taken (.file .empty)
  rw [hplace] at htaken
  have hthere : it.before.files.at? Sample.sourcePlace = some (.file .empty) := by
    rcases hfiles with hfiles | hfiles
    · rw [hfiles]
      rfl
    · rw [hfiles, FileStore.at?_put_of_ne _ (by decide)]
      rfl
  rw [hpath, FileStore.read_of_locate (Sample.locate_source _) (htaken hthere)] at hread
  have hempty : ByteArray.empty = "x".toUTF8 :=
    (Except.ok.inj hread).trans (Sample.content_eq hcontent)
  exact absurd hempty (by decide)

end BackendFuzz
