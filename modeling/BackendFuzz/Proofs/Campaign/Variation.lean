import BackendFuzz.Proofs.Campaign.Dispatch
import BackendFuzz.Proofs.Rewriting.Replies

/-!
# Variants do not depend on testing

Every test draws from the session's own generator when it begins, and never
again. Two campaigns on the same seeds and rules whose generators answer alike
therefore pick the same seeds and ask for the same rewrites, however different
everything else about them is.
-/

namespace BackendFuzz

open Session

/-! ## Draws -/

def sessionDraws (asked : List Request) : List Request := asked.filter (·.isSessionDraw)

theorem sessionDraws_append (asked asked' : List Request) :
    sessionDraws (asked ++ asked') = sessionDraws asked ++ sessionDraws asked' :=
  List.filter_append asked asked'

theorem sessionDraws_testing {asked : List Request} (h : ∀ r ∈ asked, r.Testing) :
    sessionDraws asked = [] :=
  List.filter_eq_nil_iff.mpr fun r hr => by simp [(h r hr).undrawn]

/-- The session generators of two outsides answer alike from two benches on: an answer depends on
the draws since then, and on nothing else that is asked for. -/
structure Outside.DrawsAlike (o : Outside) (b : Bench) (o' : Outside) (b' : Bench) : Prop where
  choice : ∀ (more more' : List Request) size, sessionDraws more = sessionDraws more' →
    o.choice (b.asked ++ more) size = o'.choice (b'.asked ++ more') size
  bits : ∀ (more more' : List Request) count, sessionDraws more = sessionDraws more' →
    o.sessionBits (b.asked ++ more) count = o'.sessionBits (b'.asked ++ more') count

def itemAt? {α : Type} (items : List α) (index : Int) : Option α :=
  let place := if index < 0 then index + items.length else index
  if place < 0 then none else items[place.toNat]?

theorem itemAt_eq {α : Type} (items : List α) (index : Int) : itemAt items index =
    (itemAt? items index).elim (throw (Fault.misuse .outOfRange)) pure := by
  unfold itemAt itemAt?
  dsimp only
  split
  · rename_i h
    rw [h]
    rfl
  · rename_i h
    rw [h]
    rfl

theorem itemAt?_mem {α : Type} {items : List α} {index : Int} {a : α}
    (h : itemAt? items index = some a) : a ∈ items := by
  unfold itemAt? at h
  dsimp only at h
  generalize (if index < 0 then index + (items.length : Int) else index) = place at h
  split at h
  · cases h
  · exact List.mem_of_getElem? h

section
variable {o : Outside} {b b' : Bench}

theorem run_pick_inv {α : Type} {items : List α} {a : α}
    (h : (pick items).run o b = (.ok a, b')) :
    itemAt? items (o.choice b.asked items.length) = some a ∧
      b' = { b with asked := b.asked ++ [.choice items.length] } := by
  have hchoice : (choice items.length).run o b = (.ok (o.choice b.asked items.length),
      { b with asked := b.asked ++ [.choice items.length] }) := rfl
  unfold pick at h
  rw [run_bind_ok hchoice, itemAt_eq] at h
  cases hitem : itemAt? items (o.choice b.asked items.length) with
  | none => rw [hitem] at h; cases h
  | some found => rw [hitem] at h; cases h; exact ⟨rfl, rfl⟩

/-! ## How a test begins -/

structure Beginning where
  seed : SyntaxTree
  mutation : Int

def drawsOfTest (seedCount : Nat) (depth : Int) : List Request :=
  .choice seedCount :: if depth = 0 then [] else [.sessionBits Generator.mutationBits]

namespace Beginning

/-- What a test asks for first: its draws, and the rewritten tree unless the depth is zero. -/
def asked (settings : Settings) (rules : RuleSet) (depth : Int) (seedCount : Nat)
    (k : Beginning) : List Request :=
  drawsOfTest seedCount depth ++ if depth = 0 then [] else
    [Engine.request settings .rewrite [("ast", k.seed.unit), ("rules", .text rules.text),
      ("depth", .int depth), ("seed", .int k.mutation)]]

theorem sessionDraws_asked (settings : Settings) (rules : RuleSet) (depth : Int) (seedCount : Nat)
    (k : Beginning) :
    sessionDraws (k.asked settings rules depth seedCount) = drawsOfTest seedCount depth := by
  unfold asked drawsOfTest
  split <;> rfl

def Drawn (seeds : List SyntaxTree) (o : Outside) (before : List Request) (k : Beginning) : Prop :=
  itemAt? seeds (o.choice before seeds.length) = some k.seed ∧
    k.mutation = o.sessionBits (before ++ [.choice seeds.length]) Generator.mutationBits

end Beginning

theorem Generator.begins {settings : Settings} {rules : RuleSet} {depth : Int}
    {seeds : List SyntaxTree} {index : Int} {variant : Variant}
    (h : ((Generator.mk settings rules depth none).generate seeds index).run o b =
      (.ok variant, b')) : ∃ k : Beginning, k.Drawn seeds o b.asked ∧ variant.seed = k.seed ∧
        b'.asked = b.asked ++ k.asked settings rules depth seeds.length := by
  unfold generate at h
  dsimp only at h
  split at h
  · rw [run_bind_error (run_throw o b _)] at h
    cases h
  obtain ⟨seed, b₁, hpick, h⟩ := run_bind_ok_inv h
  obtain ⟨hseed, rfl⟩ := run_pick_inv hpick
  refine ⟨⟨seed, _⟩, ⟨hseed, rfl⟩, ?_⟩
  split at h
  · rename_i hdepth
    cases h
    exact ⟨rfl, by simp [Beginning.asked, drawsOfTest, hdepth]⟩
  · rename_i hdepth
    have hbits : (sessionBits mutationBits).run o
        { b with asked := b.asked ++ [.choice seeds.length] } =
        (.ok (o.sessionBits (b.asked ++ [.choice seeds.length]) mutationBits),
          { b with asked := b.asked ++ [.choice seeds.length] ++ [.sessionBits mutationBits] }) := rfl
    rw [run_bind_ok hbits] at h
    obtain ⟨tree, b₂, hrewrite, h⟩ := run_bind_ok_inv h
    cases h
    refine ⟨rfl, (Engine.asked_rewrite hrewrite).trans ?_⟩
    simp [Beginning.asked, drawsOfTest, hdepth]

end

namespace Campaign

/-! ## Tests -/

section
variable {c : Campaign} {settings : Settings} {o : Outside} {b b' : Bench} {index : Int}

/-- Once it has its variant, a test has no part in what variants there are. -/
theorem Made.asks_testing (hc : c.Equipped settings) (t : c.Made o index b b') :
    t.generated.Asks Request.Testing b' := by
  have hpresented := ((asks_present hc t.variant).of_run t.presents).mono fun _ => And.right
  have hplanned := Bench.asks_of_left ((leaves_planFor t.variant (F := fun _ _ => True)).of_run
    t.plans) fun r hr => Request.testing_of_role (r := r) (by rw [hr]; decide)
  have htried := Bench.asks_of_left ((leaves_tryBackends hc t.variant t.plan).of_run t.tries)
    fun _ => And.right
  have hjudged := Bench.asks_of_left ((leaves_judge index t.plan t.results
    (F := fun _ _ => True)).of_run t.judges) fun (r : Request) hr => (hr.elim : r.Testing)
  have hkept := ((asks_keepSource hc _ index t.variant).of_run t.keeps).mono fun _ => And.right
  exact trans_of _ (trans_of _ (trans_of _ (trans_of _ hpresented hplanned) htried) hjudged) hkept

/-- A campaign whose variants come from given seeds, by given rules to a given depth. -/
structure Varies (c : Campaign) (settings : Settings) (rules : RuleSet) (depth : Int)
    (seeds : List SyntaxTree) : Prop where
  equipped : c.Equipped settings
  generates : c.tools.generate = (Generator.mk settings rules depth none).generate seeds

/-- A test between two benches begins so, with its variant made from the seed, and asks for nothing
else that has a part in what variants there are. -/
structure BeginsAs (c : Campaign) (settings : Settings) (rules : RuleSet) (depth : Int)
    (seeds : List SyntaxTree) (o : Outside) (it : Iteration) (k : Beginning) : Prop where
  drawn : k.Drawn seeds o it.before.asked
  seed : k.seed ∈ seeds
  asked : ∃ later, (∀ r ∈ later, r.Testing) ∧
    it.after.asked = it.before.asked ++ k.asked settings rules depth seeds.length ++ later
  made : ∃ (tested : Bench) (t : c.Made o it.index it.before tested),
    it.outcome = .ok t.report ∧ t.variant.seed = k.seed

variable {rules : RuleSet} {depth : Int} {seeds : List SyntaxTree}

theorem Varies.begins (hc : c.Varies settings rules depth seeds) {it : Iteration} (h : it.Ran c o)
    {report : TestReport} (hreport : it.outcome = .ok report) :
    ∃ k, c.BeginsAs settings rules depth seeds o it k := by
  obtain ⟨tested, htest, hasked⟩ := h.tested hreport
  obtain ⟨t, rfl⟩ := made_of_run htest
  have hgenerates := t.generates
  rw [hc.generates] at hgenerates
  obtain ⟨k, hdrawn, hseed, hbegun⟩ := Generator.begins hgenerates
  obtain ⟨later, hlater, htesting⟩ := t.asks_testing hc.equipped
  exact ⟨k, { drawn := hdrawn, seed := itemAt?_mem hdrawn.1, made := ⟨tested, t, hreport, hseed⟩
              asked := ⟨later, htesting, by rw [hasked, hlater, hbegun]⟩ }⟩

def DrawsOfTests (seedCount : Nat) (depth : Int) (n : Nat) (b b' : Bench) : Prop :=
  ∃ more, b'.asked = b.asked ++ more ∧
    sessionDraws more = (List.replicate n (drawsOfTest seedCount depth)).flatten

theorem drawsOfTests_zero {seedCount : Nat} (h : b'.asked = b.asked) :
    DrawsOfTests seedCount depth 0 b b' := ⟨[], by simpa using h, rfl⟩

theorem DrawsOfTests.trans {seedCount m n : Nat} {b'' : Bench}
    (h : DrawsOfTests seedCount depth m b b') (h' : DrawsOfTests seedCount depth n b' b'') :
    DrawsOfTests seedCount depth (m + n) b b'' := by
  obtain ⟨more, hmore, hdraws⟩ := h
  obtain ⟨more', hmore', hdraws'⟩ := h'
  refine ⟨more ++ more', by rw [hmore', hmore, List.append_assoc], ?_⟩
  rw [sessionDraws_append, hdraws, hdraws', List.replicate_add, List.flatten_append]

theorem BeginsAs.draws {it : Iteration} {k : Beginning}
    (h : c.BeginsAs settings rules depth seeds o it k) :
    DrawsOfTests seeds.length depth 1 it.before it.after := by
  obtain ⟨later, htesting, hasked⟩ := h.asked
  refine ⟨_, hasked.trans (List.append_assoc _ _ _), ?_⟩
  rw [sessionDraws_append, Beginning.sessionDraws_asked, sessionDraws_testing htesting]
  simp

end

/-! ## Runs -/

section
variable {c c' : Campaign} {settings settings' : Settings} {rules : RuleSet} {depth : Int}
  {seeds : List SyntaxTree} {o o' : Outside} {b b' : Bench}

/-- Each iteration of the tests begins after the draws of as many tests as there were before it. -/
theorem Iterates.draws (hc : c.Varies settings rules depth seeds) {deadline : Option Binary64}
    {left index : Nat} {results : ResultsFile} {stats stats' : CampaignStats}
    {its : List Iteration} {ending : Ending}
    (h : c.Iterates o deadline left index results stats b its stats' ending b') :
    ∀ (i : Nat) it, its[i]? = some it → it.index = index + i ∧
      DrawsOfTests seeds.length depth i b it.before := by
  -- By induction on the tests: the first begins where all of them do, and a test that is made to its
  -- end, as all but the last are, adds its own draws for those after it.
  induction h with
  | spent => intro i it h; cases h
  | cut h =>
    intro i it hit
    cases i with
    | zero => cases hit; exact ⟨rfl, drawsOfTests_zero rfl⟩
    | succ i => cases hit
  | due h =>
    intro i it hit
    cases i with
    | zero => cases hit; exact ⟨rfl, drawsOfTests_zero rfl⟩
    | succ i => cases hit
  | @next left index results results' stats stats₁ stats₂ b b₁ b₂ b' report its ending h hstats ht
      hrest ih =>
    intro i it hit
    cases i with
    | zero => cases hit; exact ⟨rfl, drawsOfTests_zero rfl⟩
    | succ i =>
      obtain ⟨hindex, hdraws⟩ := ih i it hit
      have hran : (⟨index, b, b₁, .ok report⟩ : Iteration).Ran c o := ⟨_, _, h, rfl⟩
      obtain ⟨k, hk⟩ := hc.begins hran rfl
      obtain ⟨readings, rfl⟩ := timeUp_bench ht
      refine ⟨by omega, ?_⟩
      rw [Nat.add_comm]
      exact hk.draws.trans hdraws

theorem Runs.draws (hc : c.Varies settings rules depth seeds) {budget : Nat}
    {its : List Iteration} {r : Except Fault CampaignEnd} (h : c.Runs o budget b its r b') :
    ∀ it ∈ its, DrawsOfTests seeds.length depth it.index b it.before := by
  intro it hit
  obtain ⟨i, hi⟩ := List.mem_iff_getElem?.mp hit
  cases h with
  | refused hd => cases hi
  | made hd h hlast =>
    cases h with
    | unopened h => cases hi
    | opened h hits =>
      obtain ⟨hindex, more, hmore, hdraws⟩ := hits.draws hc i it hi
      rw [((leaves_opened _).of_run h).asked_eq] at hmore
      rw [hindex, Nat.zero_add]
      exact ⟨more, hmore, hdraws⟩

/-- Two campaigns whose session generators answer alike begin tests of the same number in the same
way, if both make them to their end: with the same seed, and the same request for its rewrites. -/
theorem same_variants_asked_for (hc : c.Varies settings rules depth seeds)
    (hc' : c'.Varies settings' rules depth seeds) (ho : o.DrawsAlike b o' b')
    (budget budget' : Nat) :
    ∃ its r b₁ its' r' b₁', c.Runs o budget b its r b₁ ∧ (c.run budget).run o b = (r, b₁) ∧
      c'.Runs o' budget' b' its' r' b₁' ∧ (c'.run budget').run o' b' = (r', b₁') ∧
      ∀ it ∈ its, ∀ it' ∈ its', it.index = it'.index →
        ∀ report report', it.outcome = .ok report → it'.outcome = .ok report' →
          DrawsOfTests seeds.length depth it.index b it.before ∧
          DrawsOfTests seeds.length depth it.index b' it'.before ∧
          ∃ k, c.BeginsAs settings rules depth seeds o it k ∧
            c'.BeginsAs settings' rules depth seeds o' it' k := by
  obtain ⟨its, r, b₁, hruns, hrun⟩ := run_spec c o budget b
  obtain ⟨its', r', b₁', hruns', hrun'⟩ := run_spec c' o' budget' b'
  refine ⟨its, r, b₁, its', r', b₁', hruns, hrun, hruns', hrun', ?_⟩
  intro it hit it' hit' hindex report report' hreport hreport'
  have hdraws := hruns.draws hc it hit
  have hdraws' := hruns'.draws hc' it' hit'
  rw [← hindex] at hdraws'
  obtain ⟨k, hk⟩ := hc.begins (hruns.ran it hit) hreport
  obtain ⟨k', hk'⟩ := hc'.begins (hruns'.ran it' hit') hreport'
  refine ⟨hdraws, hdraws', k, hk, ?_⟩
  obtain ⟨more, hmore, hsame⟩ := hdraws
  obtain ⟨more', hmore', hsame'⟩ := hdraws'
  -- The draws so far are the same, so the generators answer the next ones alike.
  have hchoice := ho.choice more more' seeds.length (hsame.trans hsame'.symm)
  have hbits := ho.bits (more ++ [.choice seeds.length]) (more' ++ [.choice seeds.length])
    Generator.mutationBits (by rw [sessionDraws_append, sessionDraws_append, hsame, hsame'])
  rw [← hmore, ← hmore'] at hchoice
  rw [← List.append_assoc, ← List.append_assoc, ← hmore, ← hmore'] at hbits
  obtain rfl : k = k' := by
    obtain ⟨hseed, hmutation⟩ := hk.drawn
    obtain ⟨hseed', hmutation'⟩ := hk'.drawn
    rw [hchoice, hseed'] at hseed
    cases k
    cases k'
    simp only [Option.some.injEq] at hseed
    simp only at hmutation hmutation'
    rw [hseed, hmutation, hmutation', hbits]
  exact hk'

end

end Campaign

/-! ## Two campaigns with rewrites -/

namespace Sample

def emptyTree : SyntaxTree := { unit := .object [], fileName := "c.sol" }

def rewriting (version : String) : Campaign := { campaign with
  config := { campaign.config with rewriteDepth := 1, testFunction := none }
  tools := { campaign.tools with
    generate := Generator.generate { settings := {}, rules := { text := "" }, depth := 1 } [emptyTree]
    planner := none }
  first := ⟨version⟩
  others := [] }

def rewritten : Ended where
  output := "\x7b\"ast\":\x7b\x7d,\"source\":\"x\"\x7d"

def complaining (errors : String) : Outside := { outside with
  engine := fun _ _ => .ended rewritten
  compiler := fun _ _ => .ended { output := "\x7b\x7d", errors } }

theorem parse_empty : Json.parse "\x7b\x7d" = .ok (.object []) := by
  unfold Json.parse Json.parseWithin
  simp only [String.reduceToList]
  rfl

theorem checkReply_rewritten (action : RewriteAction) (command : List String) :
    Engine.checkReply action command rewritten =
      .ok (.object [("ast", .object []), ("source", .text "x")]) := by
  have hparse : Json.parse rewritten.output =
      .ok (.object [("ast", .object []), ("source", .text "x")]) := by
    unfold Json.parse Json.parseWithin
    simp only [rewritten, String.reduceToList]
    rfl
  simp only [Engine.checkReply, hparse]
  rfl

theorem varies (version : String) : (rewriting version).Varies {} { text := "" } 1 [emptyTree] where
  equipped := {
    generates := ⟨{ settings := {}, rules := { text := "" }, depth := 1 }, [emptyTree], rfl, rfl⟩
    compiles := ⟨none, rfl, rfl⟩
    executes := rfl
    results := equipped.results }
  generates := rfl

section
variable {version errors : String} {b : Bench}

theorem run_generate_rewriting : ∃ asked events,
    ((rewriting version).tools.generate 0).run (complaining errors) b =
      (.ok { index := 0, tree := emptyTree, seed := emptyTree, depth := 1 },
        { b with asked, events }) := by
  obtain ⟨r, hcall⟩ := @Engine.run_call (complaining errors)
    { b with asked := b.asked ++ [.choice 1] ++ [.sessionBits Generator.mutationBits] } {} rewritten
    .rewrite [("ast", emptyTree.unit), ("rules", .text ""), ("depth", .int 1), ("seed", .int 0)] rfl
  rw [checkReply_rewritten] at hcall
  have hrewrite : (Engine.rewrite {} emptyTree { text := "" } 1 0).run (complaining errors)
      { b with asked := b.asked ++ [.choice 1] ++ [.sessionBits Generator.mutationBits] } =
      (.ok emptyTree, { b with
        asked := b.asked ++ [.choice 1] ++ [.sessionBits Generator.mutationBits] ++ [r] }) := by
    unfold Engine.rewrite
    rw [run_bind_ok hcall]
    rfl
  have hpick : (pick [emptyTree]).run (complaining errors) b =
      (.ok emptyTree, { b with asked := b.asked ++ [.choice 1] }) := rfl
  have hbits : (sessionBits Generator.mutationBits).run (complaining errors)
      { b with asked := b.asked ++ [.choice 1] } = (.ok 0, { b with
        asked := b.asked ++ [.choice 1] ++ [.sessionBits Generator.mutationBits] }) := rfl
  have hgenerate : (rewriting version).tools.generate 0 = (do
      let seed ← pick [emptyTree]
      let mutation ← sessionBits Generator.mutationBits
      let tree ← Engine.rewrite {} seed { text := "" } 1 mutation
      Session.debug .rules s!"Variant {(0 : Int)}: {(1 : Int)} rewrites on {seed.fileName}"
      return { index := 0, tree, seed, depth := 1 }) := rfl
  rw [hgenerate, run_bind_ok hpick, run_bind_ok hbits, run_bind_ok hrewrite]
  exact ⟨_, _, rfl⟩

theorem run_compile_rewriting (hv : (Backend.mk version).isEof = false)
    (hi : b.memory.installed.contains version = true) {variant : Variant}
    (ht : variant.tree = emptyTree) (hs : variant.seed = emptyTree) : ∃ b',
    ((rewriting version).tools.compile variant ⟨version⟩).run (complaining errors) b =
      (.ok { backend := ⟨version⟩, success := true }, b') := by
  have hversion : (CompilerVersion.resolve {} ⟨version⟩).run (complaining errors) b =
      (.ok version, b) := by
    simp [CompilerVersion.resolve, hv]
  obtain ⟨r, hrender⟩ : ∃ r, (Dispatcher.render { settings := {} } emptyTree ⟨version⟩).run
      (complaining errors) b = (.ok (.text "x"), { b with asked := b.asked ++ [r] }) :=
    @Dispatcher.run_render _ _ _ rewritten _ _ _ _ _ _ hversion rfl (checkReply_rewritten _ _) rfl
  have hname : Dispatcher.targetName variant = .ok .null := by
    rw [Dispatcher.targetName, ht, hs]
    rfl
  obtain ⟨events, hcompile⟩ := @StandardCompiler.run_compile (complaining errors)
    { b with asked := b.asked ++ [r] } _ {} version (StandardCompiler.run_ensureInstalled hi)
    (.text "x") none
  have houtput : StandardCompiler.outputOf { output := "\x7b\x7d", errors } = .ok {} := by
    simp only [StandardCompiler.outputOf, StandardOutput.parse, parse_empty, ne_eq,
      not_true_eq_false, ite_false]
    rfl
  have hverdict : StandardCompiler.verdict {} version ((complaining errors).compiler
      (b.asked ++ [r]) version) = .ok {} := houtput
  rw [hverdict] at hcompile
  rw [← ht] at hrender
  obtain ⟨events', hrun⟩ := Dispatcher.run_compile_standard hv hrender hname hcompile
  exact ⟨_, hrun⟩

theorem run_test_rewriting (hv : (Backend.mk version).isEof = false)
    (hi : b.memory.installed.contains version = true) :
    ∃ b', ((rewriting version).test 0).run (complaining errors) b = (.ok ⟨[], false⟩, b') := by
  obtain ⟨asked, events, hgenerate⟩ := @run_generate_rewriting version errors b
  generalize hv' : ({ index := 0, tree := emptyTree, seed := emptyTree, depth := 1 } : Variant) =
    variant at hgenerate
  have hpresent : ((rewriting version).present variant).run (complaining errors)
      { b with asked, events } = (.ok (), { b with asked, events }) := rfl
  have hplan : ((rewriting version).planFor variant).run (complaining errors)
      { b with asked, events } = (.ok none, { b with asked, events }) := rfl
  obtain ⟨b₁, hcompile⟩ := @run_compile_rewriting version errors { b with asked, events } hv hi
    variant (by rw [← hv']) (by rw [← hv'])
  have htry : ((rewriting version).tryBackends variant none).run (complaining errors)
      { b with asked, events } =
      (.ok [{ compile := { backend := ⟨version⟩, success := true } }], b₁) := by
    have hcons : (rewriting version).tryBackends variant none =
        [⟨version⟩].mapM ((rewriting version).tryBackend variant none) := rfl
    rw [hcons, List.mapM_cons, run_bind]
    unfold Campaign.tryBackend
    rw [run_bind_ok hcompile]
    rfl
  rw [Campaign.test_eq, run_bind_ok hgenerate, run_bind_ok hpresent, run_bind_ok hplan,
    run_bind_ok htry]
  exact ⟨b₁, rfl⟩

/-- The campaign makes its one test, whatever the compiler complains. -/
theorem runs_rewriting (hv : (Backend.mk version).isEof = false)
    (hi : b.memory.installed.contains version = true)
    (hr : b.files.at? resultsPlace ≠ some .directory) {its : List Campaign.Iteration}
    {r : Except Fault Campaign.CampaignEnd} {b' : Bench}
    (h : (rewriting version).Runs (complaining errors) 0 b its r b') :
    ∃ it, its = [it] ∧ it.index = 0 ∧ it.outcome = .ok ⟨[], false⟩ := by
  cases h with
  | refused hd => cases hd
  | made hd h hlast =>
    cases hd
    obtain ⟨results, files, events, hopen, hplace, -⟩ := run_opened (o := complaining errors)
      (b := (rewriting version).started b) hr
    obtain ⟨tested, htest⟩ := @run_test_rewriting version errors
      { (rewriting version).started b with files, events } hv hi
    have hrecorded : ((rewriting version).recordedTest 0 results).run (complaining errors)
        { (rewriting version).started b with files, events } =
        (.ok (results, ⟨[], false⟩), tested) := by
      unfold Campaign.recordedTest ResultsFile.write
      rw [run_bind_ok htest, hplace]
      rfl
    cases h with
    | unopened h => cases hopen.symm.trans h
    | opened h hits =>
      cases hopen.symm.trans h
      have hleft : (rewriting version).testsAtMost 0 = 1 := rfl
      rw [hleft] at hits
      cases hits with
      | cut hrec => cases hrecorded.symm.trans hrec
      | due hrec hstats ht => cases ht
      | next hrec hstats ht hrest =>
        cases hrecorded.symm.trans hrec
        cases hrest
        exact ⟨_, rfl, rfl, rfl⟩

theorem drawsAlike_complaining (errors errors' : String) (b b' : Bench) :
    (complaining errors).DrawsAlike b (complaining errors') b' where
  choice _ _ _ _ := rfl
  bits _ _ _ _ := rfl

end

end Sample

theorem same_rewrite_for_two_versions : ∃ r b₁ r' b₁' it it' k,
    ((Sample.rewriting "a").run 0).run (Sample.complaining "slow")
      { memory := { installed := ["a"] } } = (r, b₁) ∧
    ((Sample.rewriting "b").run 0).run (Sample.complaining "old")
      { memory := { installed := ["b"] } } = (r', b₁') ∧
    k.seed = Sample.emptyTree ∧
    (Sample.rewriting "a").BeginsAs {} { text := "" } 1 [Sample.emptyTree]
      (Sample.complaining "slow") it k ∧
    (Sample.rewriting "b").BeginsAs {} { text := "" } 1 [Sample.emptyTree]
      (Sample.complaining "old") it' k := by
  obtain ⟨its, r, b₁, its', r', b₁', hruns, hrun, hruns', hrun', hsame⟩ :=
    Campaign.same_variants_asked_for (Sample.varies "a") (Sample.varies "b")
      (Sample.drawsAlike_complaining "slow" "old" { memory := { installed := ["a"] } }
        { memory := { installed := ["b"] } }) 0 0
  obtain ⟨it, rfl, hindex, houtcome⟩ := Sample.runs_rewriting rfl rfl (by decide) hruns
  obtain ⟨it', rfl, hindex', houtcome'⟩ := Sample.runs_rewriting rfl rfl (by decide) hruns'
  obtain ⟨-, -, k, hk, hk'⟩ := hsame it (List.mem_singleton_self it) it'
    (List.mem_singleton_self it') (hindex.trans hindex'.symm) _ _ houtcome houtcome'
  exact ⟨r, b₁, r', b₁', it, it', k, hrun, hrun', List.mem_singleton.mp hk.seed, hk, hk'⟩

end BackendFuzz
