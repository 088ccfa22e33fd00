import BackendFuzz.Proofs.Compiler.Turns

/-!
# What a session remembers of compilers

A session may load seeds, render trees and compile variants in any order, and any
of these may fail. It looks for the compiler of a version until it has found it,
and for the version of the object-format build until the wrapper has told it; what
it has found it does not look for again.
-/

namespace BackendFuzz

open Session

namespace Lookup

/-! ## Calls one after another -/

structure Made where
  call : Call
  asked : List Request
  result : Except Fault Unit

structure Course where
  bench : Bench
  made : List Made := []

namespace Course

def call (d : Dispatcher) (o : Outside) (u : Course) (c : Call) : Course where
  bench := ((c.made d).run o u.bench).2
  made := u.made ++ [{
    call := c
    asked := ((c.made d).run o u.bench).2.asked.drop u.bench.asked.length
    result := ((c.made d).run o u.bench).1 }]

def calls (d : Dispatcher) (o : Outside) (u : Course) (cs : List Call) : Course :=
  cs.foldl (call d o) u

end Course

/-! ## What is counted -/

def Made.listings (m : Made) (version : String) : Nat :=
  if m.call.version? = some version then m.asked.countP Request.isListing else 0

def Made.refusals (m : Made) (version : String) : Nat :=
  if m.call.version? = some version ∧ refuses m.result then 1 else 0

namespace Course

/-- How often the installed versions were listed for the sake of a version. -/
def listings (u : Course) (version : String) : Nat := (u.made.map (·.listings version)).sum

def refusals (u : Course) (version : String) : Nat := (u.made.map (·.refusals version)).sum

def installs (u : Course) (version : String) : Nat :=
  (u.made.map (·.asked.countP (·.isInstall version))).sum

end Course

/-- Among the requests is one by whose answer a version is there. -/
def Found (o : Outside) (asked : List Request) (version : String) : Prop :=
  ∃ before after,
    asked = before ++ .installedVersions :: after ∧ version ∈ o.installed before ∨
    asked = before ++ .install version :: after ∧ o.install before version = none

/-! ## What is always so -/

/-- What holds of the requests made and of what is remembered, whatever was called. -/
structure Grounded (settings : Settings) (o : Outside) (b : Bench) : Prop where
  remembered : ∀ version ∈ b.memory.installed, Found o b.asked version
  found : ∀ before r after version, b.asked = before ++ r :: after → r.RunsCompiler version →
    Found o before version
  told : ∀ before r after version, b.asked = before ++ r :: after → r.isVersionQuery = true →
    CompilerVersion.Tells settings (o.eofVersion before) version →
      b.memory.versions.lookup settings.solcPath = some version ∧
      ∀ q ∈ after, q.isVersionQuery = false
  asked : ∀ version, b.memory.versions.lookup settings.solcPath = some version →
    ∃ before r after, b.asked = before ++ r :: after ∧ r.isVersionQuery = true ∧
      CompilerVersion.Tells settings (o.eofVersion before) version

theorem append_eq_append_cons {α : Type} {l l' before after : List α} {a : α}
    (h : l ++ l' = before ++ a :: after) :
    (∃ after', l = before ++ a :: after' ∧ after = after' ++ l') ∨
      ∃ before', before = l ++ before' ∧ l' = before' ++ a :: after := by
  rcases List.append_eq_append_iff.mp h with ⟨before', hbefore, hl'⟩ | ⟨after', hl, hafter⟩
  · exact .inr ⟨before', hbefore, hl'⟩
  · cases after' with
    | nil => exact .inr ⟨[], by simpa using hl.symm, by simpa using hafter.symm⟩
    | cons a' after' =>
      obtain ⟨rfl, rfl⟩ := List.cons.inj hafter
      exact .inl ⟨after', hl, rfl⟩

theorem concat_eq_append_cons {α : Type} {l before after : List α} {a a' : α}
    (h : l ++ [a'] = before ++ a :: after) :
    (∃ after', l = before ++ a :: after') ∨ before = l ∧ a = a' ∧ after = [] := by
  rcases append_eq_append_cons h with ⟨after', hl, -⟩ | ⟨before', hbefore, hl'⟩
  · exact .inl ⟨after', hl⟩
  · cases before' with
    | nil =>
      obtain ⟨rfl, hafter⟩ := List.cons.inj hl'
      exact .inr ⟨by simpa using hbefore, rfl, hafter.symm⟩
    | cons a'' before' =>
      have hnil := (List.cons.inj hl').2
      simp at hnil

section
variable {settings : Settings} {o : Outside} {b b' : Bench} {asked more : List Request}
  {version : String}

theorem Found.append (h : Found o asked version) (more : List Request) :
    Found o (asked ++ more) version := by
  obtain ⟨before, after, ⟨rfl, hlisted⟩ | ⟨rfl, hinstall⟩⟩ := h
  · exact ⟨before, after ++ more, .inl ⟨by simp, hlisted⟩⟩
  · exact ⟨before, after ++ more, .inr ⟨by simp, hinstall⟩⟩

/-- Requests other than those of the wrapper leave what it told as it was. -/
theorem Grounded.append (h : Grounded settings o b) (hasked : b'.asked = b.asked ++ more)
    (hversions : b'.memory.versions = b.memory.versions)
    (hremembered : ∀ version ∈ b'.memory.installed, Found o b'.asked version)
    (hfound : ∀ r ∈ more, ∀ version, r.RunsCompiler version → Found o b.asked version)
    (hqueries : ∀ r ∈ more, r.isVersionQuery = false) : Grounded settings o b' where
  remembered := hremembered
  found := by
    intro before r after version hsplit hruns
    rw [hasked] at hsplit
    rcases append_eq_append_cons hsplit with ⟨after', hb, -⟩ | ⟨before', rfl, hmore⟩
    · exact h.found before r after' version hb hruns
    · exact (hfound r (by simp [hmore]) version hruns).append before'
  told := by
    intro before r after version hsplit hquery htells
    rw [hasked] at hsplit
    rcases append_eq_append_cons hsplit with ⟨after', hb, rfl⟩ | ⟨before', rfl, hmore⟩
    · obtain ⟨hlookup, hafter⟩ := h.told before r after' version hb hquery htells
      refine ⟨by rw [hversions, hlookup], fun q hq => ?_⟩
      exact (List.mem_append.mp hq).elim (hafter q) (hqueries q)
    · rw [hqueries r (by simp [hmore])] at hquery
      cases hquery
  asked := by
    intro version hlookup
    rw [hversions] at hlookup
    obtain ⟨before, r, after, hb, hquery, htells⟩ := h.asked version hlookup
    exact ⟨before, r, after ++ more, by rw [hasked, hb]; simp, hquery, htells⟩

theorem Grounded.keeps_aside (h : Grounded settings o b) (hkeeps : b.Keeps (·.isAside = true) b') :
    Grounded settings o b' := by
  obtain ⟨more, hasked, hmore⟩ := hkeeps.asked
  refine h.append hasked (by rw [hkeeps.memory]) ?_ ?_ ?_
  · intro version hversion
    rw [hkeeps.memory] at hversion
    rw [hasked]
    exact (h.remembered version hversion).append more
  · intro r hr version hruns
    have hnot := hruns.not_aside
    rw [hmore r hr] at hnot
    cases hnot
  · intro r hr
    have haside := hmore r hr
    cases r <;> first | rfl | cases haside

theorem Grounded.keeps_running (h : Grounded settings o b) (hversion : Found o b.asked version)
    (hkeeps : b.Keeps (·.RunsCompiler version) b') : Grounded settings o b' := by
  obtain ⟨more, hasked, hmore⟩ := hkeeps.asked
  refine h.append hasked (by rw [hkeeps.memory]) ?_ ?_ ?_
  · intro version' hversion'
    rw [hkeeps.memory] at hversion'
    rw [hasked]
    exact (h.remembered version' hversion').append more
  · intro r hr version' hruns
    rwa [← (hmore r hr).unique hruns]
  · intro r hr
    exact (hmore r hr).not_query

theorem found_listed (hlisted : version ∈ o.installed asked) :
    Found o (asked ++ [.installedVersions]) version :=
  ⟨asked, [], .inl ⟨rfl, hlisted⟩⟩

theorem found_installed (hinstall : o.install asked version = none) :
    Found o (asked ++ [.install version]) version :=
  ⟨asked, [], .inr ⟨rfl, hinstall⟩⟩

theorem Grounded.ensured {r : Except Fault Unit} (h : Grounded settings o b)
    (hensured : StandardCompiler.Ensured settings version o b r b') : Grounded settings o b' := by
  -- None of the requests runs a compiler or asks for a version.
  have grounded_of : ∀ {b'' : Bench} {more : List Request}, b''.asked = b.asked ++ more →
      b''.memory.versions = b.memory.versions →
      (∀ v ∈ b''.memory.installed, v ∈ b.memory.installed ∨ Found o b''.asked v) →
      (∀ r ∈ more, r.isListing = true ∨ r.isInstall version = true) → Grounded settings o b'' := by
    intro b'' more hasked hversions hinstalled hmore
    refine h.append hasked hversions ?_ ?_ ?_
    · intro v hv
      rcases hinstalled v hv with hknown | hfound
      · rw [hasked]
        exact (h.remembered v hknown).append more
      · exact hfound
    · intro r hr v hruns
      rcases hruns with ⟨_, _, rfl⟩ | ⟨_, _, rfl⟩ <;> rcases hmore _ hr with hr | hr <;> cases hr
    · intro r hr
      rcases hmore r hr with hr | hr <;> cases r <;> first | rfl | cases hr
  cases hensured with
  | known => exact h
  | listed hunknown hlisted =>
    refine grounded_of rfl rfl ?_ (by simp [Request.isListing])
    intro v hv
    rcases List.mem_append.mp hv with hv | hv
    · exact .inl hv
    · rw [List.mem_singleton.mp hv]
      exact .inr (found_listed hlisted)
  | installed hunknown hunlisted hallowed hinstall =>
    refine grounded_of (List.append_assoc _ _ _) rfl ?_ (by simp [Request.isListing, Request.isInstall])
    intro v hv
    rcases List.mem_append.mp hv with hv | hv
    · exact .inl hv
    · rw [List.mem_singleton.mp hv]
      exact .inr (found_installed hinstall)
  | forbidden => exact grounded_of rfl rfl (fun v hv => .inl hv) (by simp [Request.isListing])
  | failed =>
    exact grounded_of (List.append_assoc _ _ _) rfl (fun v hv => .inl hv)
      (by simp [Request.isListing, Request.isInstall])

theorem Grounded.queried {r : Except Fault String} (h : Grounded settings o b)
    (hqueried : CompilerVersion.Queried settings settings.solcPath o b r b') :
    Grounded settings o b' := by
  have hremembered : ∀ v ∈ b.memory.installed,
      Found o (b.asked ++ [CompilerVersion.request settings settings.solcPath]) v :=
    fun v hv => (h.remembered v hv).append _
  have hfound : ∀ before r after v,
      b.asked ++ [CompilerVersion.request settings settings.solcPath] = before ++ r :: after →
        r.RunsCompiler v → Found o before v := by
    intro before r after v hsplit hruns
    rcases concat_eq_append_cons hsplit with ⟨after', hb⟩ | ⟨-, rfl, -⟩
    · exact h.found before r after' v hb hruns
    · cases hruns.not_query
  -- The version is not known, so none of the earlier queries has told it.
  have hsilent : b.memory.versions.lookup settings.solcPath = none →
      ∀ before r after v, b.asked = before ++ r :: after → r.isVersionQuery = true →
        ¬ CompilerVersion.Tells settings (o.eofVersion before) v := by
    intro hunknown before r after v hb hquery htells
    have hknown := (h.told before r after v hb hquery htells).1
    rw [hunknown] at hknown
    cases hknown
  cases hqueried with
  | known => exact h
  | @told version events hunknown htells =>
    have hlookup : (b.memory.versions ++ [(settings.solcPath, version)]).lookup settings.solcPath =
        some version := by simp [List.lookup_append, hunknown]
    refine { remembered := hremembered, found := hfound, told := ?_, asked := ?_ }
    · intro before r after v hsplit hquery hv
      rcases concat_eq_append_cons hsplit with ⟨after', hb⟩ | ⟨rfl, rfl, rfl⟩
      · exact absurd hv (hsilent hunknown before r after' v hb hquery)
      · obtain rfl := hv.unique htells
        exact ⟨hlookup, List.forall_mem_nil _⟩
    · intro v hv
      obtain rfl := Option.some.inj (hlookup.symm.trans hv)
      exact ⟨b.asked, _, [], rfl, rfl, htells⟩
  | refused hunknown htells =>
    refine { remembered := hremembered, found := hfound, told := ?_, asked := ?_ }
    · intro before r after v hsplit hquery hv
      rcases concat_eq_append_cons hsplit with ⟨after', hb⟩ | ⟨rfl, rfl, rfl⟩
      · exact absurd hv (hsilent hunknown before r after' v hb hquery)
      · exact absurd hv (htells v)
    · intro v hv
      rw [hunknown] at hv
      cases hv

theorem Grounded.prepares (h : Grounded settings o b) (hprepares : Prepares settings o b b') :
    Grounded settings o b' := by
  obtain ⟨b₁, rfl | ⟨r, hqueried⟩, hkeeps⟩ := hprepares
  · exact h.keeps_aside hkeeps
  · exact (h.queried hqueried).keeps_aside hkeeps

theorem Grounded.turn {version? : Option String} {r : Except Fault Unit} (h : Grounded settings o b)
    (hturn : Turn settings o b version? r b') : Grounded settings o b' := by
  cases hturn with
  | aside hprepares => exact h.prepares hprepares
  | short hprepares hother => exact h.prepares hprepares
  | refused hprepares hensured => exact (h.prepares hprepares).ensured hensured
  | there hprepares hensured hkeeps hother =>
    have hthere := (h.prepares hprepares).ensured hensured
    exact hthere.keeps_running (hthere.remembered _ hensured.remembers) hkeeps

end

/-! ## What a turn adds -/

structure Still (b : Bench) (more : List Request) (b' : Bench) : Prop where
  asked : b'.asked = b.asked ++ more
  unlisted : more.countP Request.isListing = 0
  uninstalled : ∀ version, more.countP (Request.isInstall version) = 0
  installed : b'.memory.installed = b.memory.installed

/-- What a turn adds to the counts of a version. A compiler that is listed is found or refused. -/
structure Adds (version? : Option String) (b : Bench) (more : List Request) (r : Except Fault Unit)
    (b' : Bench) : Prop where
  asked : b'.asked = b.asked ++ more
  others : ∀ version, version? ≠ some version →
    (version ∈ b'.memory.installed ↔ version ∈ b.memory.installed)
  listings : ∀ version, version? = some version →
    more.countP Request.isListing + (if version ∈ b.memory.installed then 1 else 0) =
      (if refuses r then 1 else 0) + if version ∈ b'.memory.installed then 1 else 0
  installs : ∀ version, more.countP (Request.isInstall version) ≤
    if version? = some version then more.countP Request.isListing else 0
  refused : ∀ version, version? = some version → refuses r = true →
    version ∉ b'.memory.installed

section
variable {settings : Settings} {o : Outside} {b b' b₁ b₂ : Bench} {version : String}
  {version? : Option String} {r : Except Fault Unit} {more more₁ more₂ : List Request}

theorem still_of_keeps {K : Request → Prop} (h : b.Keeps K b')
    (hK : ∀ r, K r → r.isListing = false ∧ ∀ version, r.isInstall version = false) :
    ∃ more, Still b more b' := by
  obtain ⟨more, hasked, hmore⟩ := h.asked
  refine ⟨more, hasked, ?_, fun version => ?_, by rw [h.memory]⟩
  · exact List.countP_eq_zero.mpr fun r hr => by simp [(hK r (hmore r hr)).1]
  · exact List.countP_eq_zero.mpr fun r hr => by simp [(hK r (hmore r hr)).2 version]

theorem still_of_aside (h : b.Keeps (·.isAside = true) b') : ∃ more, Still b more b' := by
  refine still_of_keeps h fun r hr => ?_
  cases r <;> first | exact ⟨rfl, fun _ => rfl⟩ | cases hr

theorem still_of_running (h : b.Keeps (·.RunsCompiler version) b') : ∃ more, Still b more b' := by
  refine still_of_keeps h fun r hr => ?_
  rcases hr with ⟨input, paths, rfl⟩ | ⟨timeout, input, rfl⟩ <;> exact ⟨rfl, fun _ => rfl⟩

theorem Still.trans (h : Still b more₁ b₁) (h' : Still b₁ more₂ b') : Still b (more₁ ++ more₂) b' where
  asked := by rw [h'.asked, h.asked, List.append_assoc]
  unlisted := by rw [List.countP_append, h.unlisted, h'.unlisted]
  uninstalled version := by rw [List.countP_append, h.uninstalled, h'.uninstalled]
  installed := h'.installed.trans h.installed

theorem still_of_queried {x : Except Fault String}
    (h : CompilerVersion.Queried settings settings.solcPath o b x b') : ∃ more, Still b more b' := by
  cases h with
  | known => exact ⟨[], (List.append_nil _).symm, rfl, fun _ => rfl, rfl⟩
  | told => exact ⟨[_], rfl, rfl, fun _ => rfl, rfl⟩
  | refused => exact ⟨[_], rfl, rfl, fun _ => rfl, rfl⟩

theorem still_of_prepares (h : Prepares settings o b b') : ∃ more, Still b more b' := by
  obtain ⟨b₁, rfl | ⟨x, hqueried⟩, hkeeps⟩ := h
  · exact still_of_aside hkeeps
  · obtain ⟨more₁, h₁⟩ := still_of_queried hqueried
    obtain ⟨more₂, h₂⟩ := still_of_aside hkeeps
    exact ⟨_, h₁.trans h₂⟩

theorem adds_of_still (h : Still b more b') (hr : version? ≠ none → refuses r = false) :
    Adds version? b more r b' where
  asked := h.asked
  others version _ := by rw [h.installed]
  listings version hversion := by simp [h.unlisted, h.installed, hr (by simp [hversion])]
  installs version := by simp [h.uninstalled]
  refused version hversion hrefused := by simp [hr (by simp [hversion])] at hrefused

theorem adds_of_ensured (h : StandardCompiler.Ensured settings version o b r b') :
    ∃ more, Adds (some version) b more r b' := by
  have hinstalls : ∀ v, ([.installedVersions, .install version] : List Request).countP
      (Request.isInstall v) ≤ if some version = some v then 1 else 0 := by
    intro v
    by_cases hv : version = v <;> simp [Request.isInstall, hv]
  have hlistings : ([.installedVersions, .install version] : List Request).countP
      Request.isListing = 1 := rfl
  cases h with
  | known hknown =>
    refine ⟨[], (List.append_nil _).symm, fun v _ => Iff.rfl, ?_, fun v => by simp, ?_⟩
    · rintro v ⟨⟩
      simp [refuses]
    · rintro v ⟨⟩ hrefused
      cases hrefused
  | listed hunknown hlisted =>
    refine ⟨[.installedVersions], rfl, ?_, ?_, fun v => by simp [Request.isInstall], ?_⟩
    · intro v hv
      have hne : v ≠ version := fun h => hv (by rw [h])
      simp [hne]
    · rintro v ⟨⟩
      simp [refuses, hunknown, Request.isListing]
    · rintro v ⟨⟩ hrefused
      cases hrefused
  | installed hunknown hunlisted hallowed hinstall =>
    refine ⟨[.installedVersions, .install version], List.append_assoc _ _ _, ?_, ?_, hinstalls, ?_⟩
    · intro v hv
      have hne : v ≠ version := fun h => hv (by rw [h])
      simp [hne]
    · rintro v ⟨⟩
      simp [refuses, hunknown, hlistings]
    · rintro v ⟨⟩ hrefused
      cases hrefused
  | forbidden hunknown hunlisted hallowed =>
    refine ⟨[.installedVersions], rfl, fun v _ => Iff.rfl, ?_, fun v => by simp [Request.isInstall], ?_⟩
    · rintro v ⟨⟩
      simp [refuses, isRefusal, hunknown, Request.isListing]
    · rintro v ⟨⟩ -
      exact hunknown
  | failed hunknown hunlisted hallowed hinstall =>
    refine ⟨[.installedVersions, .install version], List.append_assoc _ _ _, fun v _ => Iff.rfl, ?_,
      hinstalls, ?_⟩
    · rintro v ⟨⟩
      simp [refuses, isRefusal, hunknown, hlistings]
    · rintro v ⟨⟩ -
      exact hunknown

theorem Still.adds (h : Still b more₁ b₁) (hadds : Adds version? b₁ more₂ r b') :
    Adds version? b (more₁ ++ more₂) r b' where
  asked := by rw [hadds.asked, h.asked, List.append_assoc]
  others version hversion := by rw [hadds.others version hversion, h.installed]
  listings version hversion := by
    rw [List.countP_append, h.unlisted, Nat.zero_add, ← h.installed, hadds.listings version hversion]
  installs version := by
    rw [List.countP_append, List.countP_append, h.uninstalled, h.unlisted, Nat.zero_add, Nat.zero_add]
    exact hadds.installs version
  refused := hadds.refused

theorem Adds.still (hadds : Adds version? b more₁ (.ok ()) b₁) (h : Still b₁ more₂ b')
    (hr : refuses r = false) : Adds version? b (more₁ ++ more₂) r b' where
  asked := by rw [h.asked, hadds.asked, List.append_assoc]
  others version hversion := by rw [h.installed, hadds.others version hversion]
  listings version hversion := by
    rw [List.countP_append, h.unlisted, Nat.add_zero, h.installed, hadds.listings version hversion,
      hr, refuses]
  installs version := by
    rw [List.countP_append, List.countP_append, h.uninstalled, h.unlisted, Nat.add_zero, Nat.add_zero]
    exact hadds.installs version
  refused version _ hrefused := by simp [hr] at hrefused

theorem refuses_of_other (h : ∀ fault, r = .error fault → Other fault) : refuses r = false := by
  cases r with
  | ok _ => rfl
  | error fault => exact h fault rfl

theorem Turn.adds (h : Turn settings o b version? r b') : ∃ more, Adds version? b more r b' := by
  cases h with
  | aside hprepares =>
    obtain ⟨more, hstill⟩ := still_of_prepares hprepares
    exact ⟨more, adds_of_still hstill fun hnone => absurd rfl hnone⟩
  | short hprepares hother =>
    obtain ⟨more, hstill⟩ := still_of_prepares hprepares
    exact ⟨more, adds_of_still hstill fun _ => hother⟩
  | refused hprepares hensured =>
    obtain ⟨more₁, hstill⟩ := still_of_prepares hprepares
    obtain ⟨more₂, hadds⟩ := adds_of_ensured hensured
    exact ⟨_, hstill.adds hadds⟩
  | there hprepares hensured hkeeps hother =>
    obtain ⟨more₁, hstill⟩ := still_of_prepares hprepares
    obtain ⟨more₂, hadds⟩ := adds_of_ensured hensured
    obtain ⟨more₃, hrunning⟩ := still_of_running hkeeps
    exact ⟨_, hstill.adds (hadds.still hrunning (refuses_of_other hother))⟩

end

/-! ## A session -/

structure Fresh (b : Bench) : Prop where
  memory : b.memory = {}
  asked : ∀ r ∈ b.asked, r.isAside = true

namespace Course

structure Sound (settings : Settings) (o : Outside) (b : Bench) (u : Course) : Prop where
  grounded : Grounded settings o u.bench
  asked : u.bench.asked = b.asked ++ u.made.flatMap (·.asked)
  listings : ∀ version, u.listings version =
    u.refusals version + if version ∈ u.bench.memory.installed then 1 else 0
  installs : ∀ version, u.installs version ≤ u.listings version

section
variable {d : Dispatcher} {o : Outside} {b : Bench} {u : Course}

theorem listings_concat (u : Course) (bench : Bench) (m : Made) (version : String) :
    listings ⟨bench, u.made ++ [m]⟩ version = u.listings version + m.listings version := by
  simp [listings]

theorem refusals_concat (u : Course) (bench : Bench) (m : Made) (version : String) :
    refusals ⟨bench, u.made ++ [m]⟩ version = u.refusals version + m.refusals version := by
  simp [refusals]

theorem installs_concat (u : Course) (bench : Bench) (m : Made) (version : String) :
    installs ⟨bench, u.made ++ [m]⟩ version =
      u.installs version + m.asked.countP (·.isInstall version) := by
  simp [installs]

theorem grounded_of_fresh {settings : Settings} (h : Fresh b) : Grounded settings o b where
  remembered := by simp [h.memory]
  found := by
    intro before r after version hb hruns
    have haside := h.asked r (by simp [hb])
    rw [hruns.not_aside] at haside
    cases haside
  told := by
    intro before r after version hb hquery htells
    have haside := h.asked r (by simp [hb])
    cases r <;> first | exact absurd hquery Bool.false_ne_true | cases haside
  asked := by simp [h.memory]

theorem sound_start (h : Fresh b) : Sound d.settings o b { bench := b } where
  grounded := grounded_of_fresh h
  asked := (List.append_nil _).symm
  listings version := by simp [listings, refusals, h.memory]
  installs version := by simp [installs, listings]

theorem Sound.call (h : Sound d.settings o b u) (c : Call) :
    Sound d.settings o b (u.call d o c) := by
  rcases hrun : (c.made d).run o u.bench with ⟨r, b'⟩
  have hturn := c.turn hrun
  obtain ⟨more, hadds⟩ := hturn.adds
  have hcall : u.call d o c = ⟨b', u.made ++ [⟨c, more, r⟩]⟩ := by
    simp [Course.call, hrun, hadds.asked]
  rw [hcall]
  refine ⟨h.grounded.turn hturn, ?_, fun version => ?_, fun version => ?_⟩
  · simp [hadds.asked, h.asked]
  · rw [listings_concat, refusals_concat, h.listings version]
    by_cases hversion : c.version? = some version
    · have hmore := hadds.listings version hversion
      simp only [Made.listings, Made.refusals, hversion, if_true, true_and]
      omega
    · have hsame := hadds.others version hversion
      simp only [Made.listings, Made.refusals, hversion, if_false, false_and, hsame]
      omega
  · have hmore := hadds.installs version
    rw [installs_concat, listings_concat]
    exact Nat.add_le_add (h.installs version) hmore

theorem Sound.calls (h : Sound d.settings o b u) (cs : List Call) :
    Sound d.settings o b (u.calls d o cs) := by
  induction cs generalizing u with
  | nil => exact h
  | cons c cs ih => exact ih (h.call c)

end

end Course

/-- Whatever seeds are loaded and variants compiled, and whichever of these fails: a compiler runs
only once it was listed or installed; it is looked for again only by calls that were refused it; and
the version of the object-format build stays the one that the wrapper told first. -/
theorem compilers_looked_for_once (d : Dispatcher) (o : Outside) {b : Bench} (hfresh : Fresh b)
    (cs : List Call) :
    let u := ({ bench := b } : Course).calls d o cs
    u.bench.asked = b.asked ++ u.made.flatMap (·.asked) ∧
    (∀ before r after version, u.bench.asked = before ++ r :: after → r.RunsCompiler version →
      Found o before version) ∧
    (∀ version, u.listings version =
      u.refusals version + if version ∈ u.bench.memory.installed then 1 else 0) ∧
    (∀ version, u.installs version ≤ u.listings version) ∧
    (∀ version, u.refusals version = 0 → u.listings version ≤ 1 ∧ u.installs version ≤ 1) ∧
    (∀ c version, c.version? = some version → refuses ((c.made d).run o u.bench).1 = true →
      version ∉ (u.call d o c).bench.memory.installed) ∧
    (∀ before r after version, u.bench.asked = before ++ r :: after → r.isVersionQuery = true →
      CompilerVersion.Tells d.settings (o.eofVersion before) version →
        (∀ q ∈ after, q.isVersionQuery = false) ∧
        ∀ backend : Backend, backend.isEof = true →
          (CompilerVersion.resolve d.settings backend).run o u.bench = (.ok version, u.bench)) ∧
    (∀ (backend : Backend) version b', backend.isEof = true →
      (CompilerVersion.resolve d.settings backend).run o u.bench = (.ok version, b') →
        ∃ before r after, b'.asked = before ++ r :: after ∧ r.isVersionQuery = true ∧
          CompilerVersion.Tells d.settings (o.eofVersion before) version) ∧
    ∀ backend : Backend, backend.isEof = false →
      (CompilerVersion.resolve d.settings backend).run o u.bench =
        (.ok backend.version, u.bench) := by
  intro u
  have hsound : Course.Sound d.settings o b u := (Course.sound_start hfresh).calls cs
  have resolve_eof : ∀ backend : Backend, backend.isEof = true →
      CompilerVersion.resolve d.settings backend =
        CompilerVersion.query d.settings d.settings.solcPath :=
    fun backend hb => if_pos hb
  refine ⟨hsound.asked, hsound.grounded.found, hsound.listings, hsound.installs, fun version hnone => ?_,
    fun c version hversion hrefused => ?_, fun before r after version hsplit hquery htells => ?_,
    fun backend version b' hb hrun => ?_, fun backend hb => ?_⟩
  · have hlistings := hsound.listings version
    have hinstalls := hsound.installs version
    rw [hnone] at hlistings
    split at hlistings <;> omega
  · obtain ⟨more, hadds⟩ := (c.turn (d := d) (o := o) (b := u.bench) rfl).adds
    exact hadds.refused version hversion hrefused
  · obtain ⟨hknown, hafter⟩ := hsound.grounded.told before r after version hsplit hquery htells
    refine ⟨hafter, fun backend hb => ?_⟩
    rw [resolve_eof backend hb]
    exact CompilerVersion.run_query_known hknown
  · rw [resolve_eof backend hb] at hrun
    have hqueried := CompilerVersion.queried hrun
    cases hqueried with
    | known hknown => exact hsound.grounded.asked version hknown
    | told hunknown htells => exact ⟨u.bench.asked, _, [], rfl, rfl, htells⟩
  · unfold CompilerVersion.resolve
    rw [hb]
    rfl

end Lookup

/-! ## One installation, and one version -/

namespace Sample

def installing : Outside := { Outside.alone ⟨2024, 1, 1, 0, 0, 0, 0⟩ with
  install := fun _ _ => none
  eofVersion := fun _ => .ended { output := "Version: 0.8.29+commit" } }

def lookups : List Lookup.Call :=
  [.seeds [] "0.8.27" none, .seeds [] "0.8.27" none,
    .rendering { unit := .null, fileName := "c.sol" } ⟨"eof"⟩]

end Sample

theorem one_compiler_installed_once :
    let u := ({ bench := {} } : Lookup.Course).calls { settings := {} } Sample.installing Sample.lookups
    u.refusals "0.8.27" = 0 ∧ u.listings "0.8.27" = 1 ∧ u.installs "0.8.27" ≤ 1 ∧
      (CompilerVersion.resolve {} ⟨"eof"⟩).run Sample.installing u.bench =
        (.ok "0.8.29", u.bench) := by
  intro u
  have hfresh : Lookup.Fresh {} := ⟨rfl, by simp⟩
  obtain ⟨-, -, hlistings, -, honce, -, htold, -⟩ :=
    Lookup.compilers_looked_for_once { settings := {} } Sample.installing hfresh Sample.lookups
  have hrefusals : u.refusals "0.8.27" = 0 := by decide +kernel
  have hinstalled : "0.8.27" ∈ u.bench.memory.installed := by decide +kernel
  have hversion : CompilerVersion.Tells {} (.ended { output := "Version: 0.8.29+commit" }) "0.8.29" := by
    have htells := CompilerVersion.tells_told {} { output := "Version: 0.8.29+commit" }
    have hreport : CompilerVersion.told? { output := "Version: 0.8.29+commit" } = some "0.8.29" := by
      decide +kernel
    rwa [hreport] at htells
  refine ⟨hrefusals, ?_, (honce _ hrefusals).2, ?_⟩
  · have hlisted := hlistings "0.8.27"
    rwa [hrefusals, if_pos hinstalled] at hlisted
  · exact (htold [.installedVersions, .install "0.8.27"] _ _ "0.8.29" rfl rfl hversion).2 ⟨"eof"⟩ rfl

end BackendFuzz
