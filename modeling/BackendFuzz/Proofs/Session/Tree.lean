import BackendFuzz.Proofs.Session.Scratch

/-!
# Places behind directories

A path leads through directories only. As long as these stay, it leads to the
same place, and what is there stays unless files are made or changed at it.
-/

namespace BackendFuzz

namespace Place

theorem within_iff {p q : Place} :
    p.within q = true ↔ p.absolute = q.absolute ∧ p.above = q.above ∧ q.names <+: p.names := by
  simp [within, and_assoc]

theorem within_trans {p q r : Place} (h : p.within q = true) (h' : q.within r = true) :
    p.within r = true := by
  rw [within_iff] at h h' ⊢
  exact ⟨h.1.trans h'.1, h.2.1.trans h'.2.1, h'.2.2.trans h.2.2⟩

theorem within_antisymm {p q : Place} (h : p.within q = true) (h' : q.within p = true) : p = q := by
  rw [within_iff] at h h'
  have hnames : p.names = q.names := h'.2.2.eq_of_length_le h.2.2.length_le
  cases p
  cases q
  simp_all

theorem within_down_iff {p q : Place} {name : String} :
    (p.down name).within q = true ↔ q = p.down name ∨ p.within q = true := by
  constructor
  · intro h
    have h' := within_iff.mp h
    rcases List.prefix_concat_iff.mp h'.2.2 with hn | hn
    · refine Or.inl ?_
      cases q
      simp only [down] at h' hn ⊢
      simp [h'.1, h'.2.1, hn]
    · exact Or.inr (within_iff.mpr ⟨h'.1, h'.2.1, hn⟩)
  · rintro (rfl | h)
    · exact FileStore.within_self _
    · exact within_trans (FileStore.within_down p name) h

theorem down_inj {p q : Place} {name other : String} (h : p.down name = q.down other) :
    name = other := by
  have hnames : p.names ++ [name] = q.names ++ [other] := congrArg Place.names h
  exact (List.append_inj' hnames rfl).2 |> List.singleton_inj.mp

end Place

namespace Path

theorem parent_child (path : Path) (name : String) : (path.child name).parent = path := by
  simp [parent, child]

end Path

namespace FileStore

section
variable {s s' s'' : FileStore} {p q : Place} {path : Path} {W W' S S' : Place → Prop}

/-! ## Reached places -/

/-- Every place above is a directory. -/
def Reached (s : FileStore) (p : Place) : Prop :=
  ∀ q, p.within q = true → q ≠ p → s.at? q = some .directory

theorem reached_of_names_nil (h : p.names = []) : s.Reached p := by
  intro q hq hne
  rw [Place.within_iff, h, List.prefix_nil] at hq
  refine absurd ?_ hne
  cases p
  cases q
  simp_all

theorem Reached.above (h : s.Reached p) (hq : p.within q = true) : s.Reached q := by
  intro r hr hne
  refine h r (Place.within_trans hq hr) ?_
  rintro rfl
  exact hne (Place.within_antisymm hq hr)

theorem Reached.down (h : s.Reached p) (hd : s.at? p = some .directory) (name : String) :
    s.Reached (p.down name) := by
  intro q hq hne
  rcases Place.within_down_iff.mp hq with rfl | hq
  · exact absurd rfl hne
  · by_cases hp : q = p
    · exact hp ▸ hd
    · exact h q hq hp

theorem Reached.up (h : s.Reached p) : s.Reached p.up := by
  unfold Place.up
  split
  · rename_i hroot
    simp only [Bool.and_eq_true, List.isEmpty_iff] at hroot
    exact reached_of_names_nil hroot.1
  · refine h.above (Place.within_iff.mpr ⟨rfl, rfl, ?_⟩)
    exact List.dropLast_prefix _

theorem walk_reached {parts : List String} (hp : s.Reached p) (hw : s.walk p parts = .ok q) :
    s.Reached q := by
  induction parts generalizing p with
  | nil => cases hw; exact hp
  | cons part parts ih =>
    unfold walk at hw
    split at hw
    · rename_i hd
      split at hw
      · cases hw
      · refine ih ?_ hw
        split
        · exact hp.up
        · exact hp.down hd part
    · cases hw
    · cases hw

theorem locate_inv (h : s.locate path = .ok p) :
    ¬ maxPath < Path.byteSize path.text ∧
      s.walk { absolute := !path.root.isEmpty, names := [] } path.parts = .ok p := by
  unfold locate at h
  split at h
  · cases h
  · rename_i hsize
    refine ⟨hsize, ?_⟩
    cases hw : s.walk { absolute := !path.root.isEmpty, names := [] } path.parts with
    | error cause => simp [hw, mapError_error] at h
    | ok q => simpa [hw, mapError_ok] using h

theorem locate_of_walk (hsize : ¬ maxPath < Path.byteSize path.text)
    (hw : s.walk { absolute := !path.root.isEmpty, names := [] } path.parts = .ok p) :
    s.locate path = .ok p := by
  simp [locate, hsize, hw, mapError_ok]

theorem locate_reached (h : s.locate path = .ok p) : s.Reached p :=
  walk_reached (reached_of_names_nil rfl) (locate_inv h).2

theorem node?_of_locate (hl : s.locate path = .ok p) : s.node? path = .ok (s.at? p) := by
  simp only [node?, hl]

theorem node?_inv {node : FileNode} (h : s.node? path = .ok (some node)) :
    ∃ p, s.locate path = .ok p ∧ s.at? p = some node := by
  unfold node? at h
  split at h
  · rename_i p hl
    exact ⟨p, hl, Except.ok.inj h⟩
  · split at h <;> cases h

theorem read_inv {content : ByteArray} (h : s.read path = .ok content) :
    s.node? path = .ok (some (.file content)) := by
  unfold read at h
  cases hl : s.locate path with
  | error fault => rw [hl, error_bind] at h; cases h
  | ok p =>
    rw [hl, ok_bind] at h
    rw [node?_of_locate hl]
    cases hp : s.at? p with
    | none => rw [hp] at h; cases h
    | some node =>
      rw [hp] at h
      cases node with
      | file content' => cases h; rfl
      | directory => cases h

theorem read_of_locate {content : ByteArray} (hl : s.locate path = .ok p)
    (hp : s.at? p = some (.file content)) : s.read path = .ok content := by
  simp [read, hl, hp, ok_bind, pure, Except.pure]

theorem read_of_node? {content : ByteArray} (h : s.node? path = .ok (some (.file content))) :
    s.read path = .ok content := by
  obtain ⟨p, hl, hp⟩ := node?_inv h
  exact read_of_locate hl hp

def Free (s : FileStore) (path : Path) : Prop := ∀ node, s.node? path ≠ .ok (some node)

theorem Free.at? (h : s.Free path) (hl : s.locate path = .ok p) : s.at? p = none := by
  rw [Option.eq_none_iff_forall_ne_some]
  intro node hp
  exact h node (by rw [node?_of_locate hl, hp])

section
variable (h : ∀ p, s.Reached p → s.at? p = some .directory → s'.at? p = some .directory)
include h

theorem walk_of_directories {parts : List String} (hp : s.Reached p)
    (hw : s.walk p parts = .ok q) : s'.walk p parts = .ok q := by
  induction parts generalizing p with
  | nil => exact hw
  | cons part parts ih =>
    unfold walk at hw ⊢
    split at hw
    · rename_i hd
      rw [h p hp hd]
      dsimp only
      split at hw
      · cases hw
      · rename_i hsize
        rw [if_neg hsize]
        refine ih ?_ hw
        split
        · exact hp.up
        · exact hp.down hd part
    · cases hw
    · cases hw

theorem locate_of_directories (hl : s.locate path = .ok p) : s'.locate path = .ok p := by
  obtain ⟨hsize, hw⟩ := locate_inv hl
  exact locate_of_walk hsize (walk_of_directories h (reached_of_names_nil rfl) hw)

end

/-! ## Names in a directory -/

theorem walk_concat (s : FileStore) (p : Place) (parts : List String) (name : String) :
    s.walk p (parts ++ [name]) = s.walk p parts >>= fun d => s.walk d [name] := by
  induction parts generalizing p with
  | nil => rfl
  | cons part parts ih =>
    rw [List.cons_append, walk, walk]
    split
    · split
      · rfl
      · exact ih _
    · rfl
    · rfl

theorem walk_name {name : String} (hn : name ≠ "..") (hw : s.walk p [name] = .ok q) :
    q = p.down name ∧ s.at? p = some .directory := by
  unfold walk at hw
  split at hw
  · rename_i hd
    split at hw
    · cases hw
    · simp only [walk, Except.ok.injEq] at hw
      exact ⟨hw.symm, hd⟩
  · cases hw
  · cases hw

theorem locate_child {d : Place} {name : String} (hn : name ≠ "..") (hd : s.locate path = .ok d)
    (hl : s.locate (path.child name) = .ok q) : q = d.down name := by
  have hw := (locate_inv hl).2
  rw [Path.child, walk_concat, (locate_inv hd).2, ok_bind] at hw
  exact (walk_name hn hw).1

/-! ## Changes of files -/

/-- Nothing but files at some of the places has been made, changed or removed. -/
def Changes (W : Place → Prop) (s s' : FileStore) : Prop :=
  ∀ p, s.Reached p → s'.at? p = s.at? p ∨ (W p ∧ s.at? p ≠ some .directory)

theorem Changes.directory (h : s.Changes W s') (hp : s.Reached p)
    (hd : s.at? p = some .directory) : s'.at? p = some .directory := by
  rcases h p hp with he | ⟨-, hn⟩
  · rw [he, hd]
  · exact absurd hd hn

theorem Changes.reached (h : s.Changes W s') (hp : s.Reached p) : s'.Reached p := by
  intro q hq hne
  exact h.directory (hp.above hq) (hp q hq hne)

theorem Changes.at? (h : s.Changes W s') (hp : s.Reached p) (hn : ¬ W p) : s'.at? p = s.at? p :=
  (h p hp).resolve_right fun hw => hn hw.1

theorem Changes.mono (h : s.Changes W s') (hw : ∀ p, W p → W' p) : s.Changes W' s' :=
  fun p hp => (h p hp).imp_right fun hc => ⟨hw p hc.1, hc.2⟩

instance (W : Place → Prop) : IsPreorder FileStore (Changes W) where
  refl _ _ _ := Or.inl rfl
  trans s s' s'' h h' p hp := by
    rcases h p hp with he | hc
    · rcases h' p (h.reached hp) with he' | hc'
      · exact Or.inl (he'.trans he)
      · exact Or.inr ⟨hc'.1, he ▸ hc'.2⟩
    · exact Or.inr hc

/-- A path still leads where it led. -/
theorem Changes.locate (h : s.Changes W s') (hl : s.locate path = .ok p) :
    s'.locate path = .ok p := locate_of_directories (fun _ => h.directory) hl

theorem changes_put (hp : W p) (hd : s.at? p ≠ some .directory) (node : FileNode) :
    s.Changes W (s.put p node) := by
  intro q _
  by_cases hq : q = p
  · subst hq
    exact Or.inr ⟨hp, hd⟩
  · exact Or.inl (at?_put_of_ne s hq)

theorem changes_appendAt (hp : W p) (bytes : ByteArray) : s.Changes W (s.appendAt p bytes) := by
  unfold appendAt
  split
  · rename_i content hc
    exact changes_put hp (by simp [hc]) _
  · exact refl_of (Changes W) s

theorem insertNode_twice (node node' : FileNode) (nodes : List (Place × FileNode)) :
    insertNode p node' (insertNode p node nodes) = insertNode p node' nodes := by
  induction nodes with
  | nil => simp [insertNode]
  | cons n nodes ih =>
    obtain ⟨q, old⟩ := n
    by_cases h : q = p <;> simp [insertNode, h, ih]

theorem put_put (s : FileStore) (p : Place) (node node' : FileNode) :
    (s.put p node).put p node' = s.put p node' := by
  simp [put, insertNode_twice]

theorem walk_not_taken {parts : List String} {cause : FileCause}
    (h : s.walk p parts = .error cause) : cause ≠ .taken := by
  induction parts generalizing p with
  | nil => cases h
  | cons part parts ih =>
    unfold walk at h
    split at h
    · split at h
      · cases h; simp
      · exact ih h
    · cases h; simp
    · cases h; simp

theorem createFile_taken {fault : FileFault} (h : s.createFile path = .error fault)
    (hf : fault.cause = .taken) : ∃ p node, s.locate path = .ok p ∧ s.at? p = some node := by
  unfold createFile at h
  cases hl : s.locate path with
  | error cause =>
    rw [hl, error_bind] at h
    cases h
    unfold locate at hl
    split at hl
    · cases hl; cases hf
    · dsimp only at hl
      cases hw : s.walk { absolute := !path.root.isEmpty, names := [] } path.parts with
      | ok p => rw [hw] at hl; cases hl
      | error cause =>
        rw [hw, mapError_error] at hl
        cases hl
        exact absurd hf (walk_not_taken hw)
  | ok p =>
    rw [hl, ok_bind] at h
    split at h
    · rename_i node hp
      exact ⟨p, node, rfl, hp⟩
    · cases h

/-! ## Scratch places -/

def Inside (p : Place) (s s' : FileStore) : Prop := ∀ q, q.within p = false → s'.at? q = s.at? q

instance (p : Place) : IsPreorder FileStore (Inside p) where
  refl _ _ _ := rfl
  trans _ _ _ h h' q hq := (h' q hq).trans (h q hq)

def OnlyWithin (p : Place) (s s' : FileStore) : Prop :=
  s'.nodes.filter (fun n => !n.1.within p) = s.nodes.filter fun n => !n.1.within p

instance (p : Place) : IsPreorder FileStore (OnlyWithin p) where
  refl _ := rfl
  trans _ _ _ h h' := h'.trans h

theorem onlyWithin_put (hq : q.within p = true) (s : FileStore) (node : FileNode) :
    s.OnlyWithin p (s.put q node) :=
  filter_insertNode (fun r => !r.within p) (by simp [hq]) s.nodes

theorem onlyWithin_writeFile (hparts : ∀ part ∈ path.parts, part ≠ "..")
    (hp : Place.within { absolute := !path.root.isEmpty, names := path.parts } p = true)
    {content : ByteArray} (h : s.writeFile path content = .ok s') : s.OnlyWithin p s' := by
  obtain ⟨q, hl, rfl⟩ := writeFile_eq h
  rw [locate_down hparts hl]
  exact onlyWithin_put hp s _

theorem OnlyWithin.inside (h : s.OnlyWithin p s') : s.Inside p s' := by
  intro q hq
  have hkeep : (!q.within p) = true := by simp [hq]
  rw [← at?_filter s' (fun r => !r.within p) hkeep, ← at?_filter s (fun r => !r.within p) hkeep]
  exact congrArg (fun nodes => (⟨nodes⟩ : FileStore).at? q) h

/-- Nothing has changed, but what was below some of the places, where nothing was, may be gone. -/
def Swept (S : Place → Prop) (s s' : FileStore) : Prop :=
  ∀ p, s'.at? p = s.at? p ∨ (s'.at? p = none ∧ ∃ q, S q ∧ p.within q = true ∧ s.at? q = none)

instance (S : Place → Prop) : IsPreorder FileStore (Swept S) where
  refl _ _ := Or.inl rfl
  trans s s' s'' h h' p := by
    have hback : ∀ q, s'.at? q = none → (∃ r, S r ∧ q.within r = true ∧ s.at? r = none) ∨
        s.at? q = none := by
      intro q hq
      rcases h q with he | ⟨-, hr⟩
      · exact Or.inr (he ▸ hq)
      · exact Or.inl hr
    rcases h' p with he' | ⟨hn', q, hS, hq, hqn⟩
    · rcases h p with he | ⟨hn, hr⟩
      · exact Or.inl (he'.trans he)
      · exact Or.inr ⟨he'.trans hn, hr⟩
    · refine Or.inr ⟨hn', ?_⟩
      rcases hback q hqn with ⟨r, hS', hr, hrn⟩ | hqn
      · exact ⟨r, hS', Place.within_trans hq hr, hrn⟩
      · exact ⟨q, hS, hq, hqn⟩

theorem Swept.mono (h : s.Swept S s') (hS : ∀ p, S p → S' p) : s.Swept S' s' :=
  fun p => (h p).imp_right fun ⟨hn, q, hq, hr⟩ => ⟨hn, q, hS q hq, hr⟩

/-- No place behind directories is swept. -/
theorem Swept.changes (h : s.Swept S s') : s.Changes W s' := by
  intro p hp
  refine Or.inl ?_
  rcases h p with he | ⟨hn, q, -, hq, hqn⟩
  · exact he
  · by_cases hpq : q = p
    · rw [hn, ← hpq, hqn]
    · rw [hp q hq hpq] at hqn
      cases hqn

theorem Swept.file (h : s.Swept S s') {content : ByteArray} (hS : ∀ q, S q → p.within q = false)
    (hp : s.at? p = some (.file content)) : s'.at? p = some (.file content) := by
  rcases h p with he | ⟨-, q, hq, hw, -⟩
  · rw [he, hp]
  · rw [hS q hq] at hw
    cases hw

theorem at?_removeTree_within (hl : s.locate path = .ok p) (hn : p.names ≠ [])
    (hq : q.within p = true) : (s.removeTree path).at? q = none := by
  have hne : q.names ≠ [] := by
    intro e
    rw [Place.within_iff, e, List.prefix_nil] at hq
    exact hn hq.2.2
  simp only [removeTree, hl, at?, List.isEmpty_iff, hne, ite_false, List.lookup_eq_none_iff]
  intro n hmem
  have hkept := (List.mem_filter.mp hmem).2
  simp only [bne_iff_ne, ne_eq]
  rintro rfl
  simp [hq] at hkept

/-- A directory that is made and removed with everything below it sweeps its place. -/
theorem swept_scratch (hp : p.names ≠ []) (hn : s.at? p = none)
    (hb : (s.put p .directory).Inside p s') (hl : s'.locate path = .ok p) :
    s.Swept (· = p) (s'.removeTree path) := by
  intro q
  cases hq : q.within p with
  | true => exact Or.inr ⟨at?_removeTree_within hl hp hq, p, rfl, hq, hn⟩
  | false =>
    refine Or.inl ?_
    have hne : q ≠ p := by
      rintro rfl
      rw [within_self] at hq
      cases hq
    rw [at?_removeTree hl hq, hb q hq, at?_put_of_ne s hne]

/-- What a directory of a program's own leaves: if nothing was at its place, what was below it may
be gone, and if nothing was below it either, nothing has changed. -/
structure Cleared (p : Place) (s s' : FileStore) : Prop where
  swept : s.Swept (· = p) s'
  restored : s.Unused p → s' = s

instance (p : Place) : IsPreorder FileStore (Cleared p) where
  refl s := ⟨refl_of (Swept (· = p)) s, fun _ => rfl⟩
  trans s s' s'' h h' := by
    refine ⟨trans_of (Swept (· = p)) h.swept h'.swept, fun hu => ?_⟩
    have hback := h.restored hu
    exact (h'.restored (hback ▸ hu)).trans hback

theorem cleared_scratch (hp : p.names ≠ []) (hn : s.at? p = none)
    (hb : (s.put p .directory).OnlyWithin p s') (hl : s'.locate path = .ok p) :
    s.Cleared p (s'.removeTree path) := by
  refine ⟨swept_scratch hp hn hb.inside hl, fun hu => ?_⟩
  have hmade : s.OnlyWithin p s' := trans_of (OnlyWithin p) (onlyWithin_put (within_self p) s _) hb
  have hkept : s'.nodes.filter (fun n => !n.1.within p) = s.nodes :=
    hmade.trans (List.filter_eq_self.mpr fun n hn => by simp [hu n hn])
  simp only [removeTree, hl, hkept]

/-! ## Directories made sure of -/

theorem names_ne_nil_of_absent (h : s.at? p = none) : p.names ≠ [] := by
  intro hp
  simp [FileStore.at?, hp] at h

theorem ensureDirectory_there (h : s.ensureDirectory path = .ok s') :
    ∃ d, s'.locate path = .ok d ∧ s'.at? d = some .directory := by
  obtain ⟨d, hl, ⟨hn, rfl⟩ | ⟨hd, rfl⟩⟩ := ensureDirectory_cases h
  · exact ⟨d, locate_put hn hl, at?_put_self s (names_ne_nil_of_absent hn)⟩
  · exact ⟨d, hl, hd⟩

theorem settle_there {made : FileStore}
    (h : s.settle (s.ensureDirectory path) = (made, none)) :
    ∃ d, made.locate path = .ok d ∧ made.at? d = some .directory := by
  cases hm : s.ensureDirectory path with
  | error fault => rw [hm] at h; cases h
  | ok changed => rw [hm] at h; cases h; exact ensureDirectory_there hm

theorem furnishFrom_there {root : String} {parts : List String}
    (h : s.furnishFrom root parts = (s', none)) :
    ∃ d, s'.locate ⟨root, parts.reverse⟩ = .ok d ∧ s'.at? d = some .directory := by
  cases parts with
  | nil => exact settle_there h
  | cons part above =>
    unfold furnishFrom at h
    dsimp only at h
    split at h
    · split_ifs at h with habove
      · exact settle_there h
      · rw [h] at habove
        exact absurd rfl habove
    · exact settle_there h

theorem furnish_there (h : s.furnish path = (s', none)) :
    ∃ d, s'.locate path = .ok d ∧ s'.at? d = some .directory := by
  have hd := furnishFrom_there h
  rwa [List.reverse_reverse] at hd

/-- Where a directory is there already, nothing is made. -/
theorem furnish_of_there (hl : s.locate path = .ok p) (hd : s.at? p = some .directory) :
    s.furnish path = (s, none) := by
  have hthere : s.ensureDirectory path = .ok s := by rw [ensureDirectory_of_locate hl, hd]
  obtain ⟨root, parts⟩ := path
  unfold furnish
  cases hparts : parts.reverse with
  | nil =>
    obtain rfl : parts = [] := List.reverse_eq_nil_iff.mp hparts
    simp [furnishFrom, hthere, settle]
  | cons part above =>
    have hpath : (part :: above).reverse = parts := by rw [← hparts, List.reverse_reverse]
    simp [furnishFrom, hpath, hthere, settle]

end

end FileStore

end BackendFuzz
