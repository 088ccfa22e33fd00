import BackendFuzz.Proofs.Session.Run
import Mathlib.Order.Defs.Unbundled

/-!
# The file store

What is put into a store is found there and moves nothing else, and a path that
led somewhere still leads there when something is put where nothing was.
-/

namespace BackendFuzz

theorem Place.down_ne (p : Place) (name : String) : p.down name ≠ p := by
  intro e
  have h := congrArg (·.names.length) e
  simp [down] at h

namespace FileStore

section
variable {p q : Place} {node : FileNode}

/-! ## Nodes -/

theorem lookup_cons (r : Place) (nodes : List (Place × FileNode)) :
    ((r, node) :: nodes).lookup q = if q = r then some node else nodes.lookup q := by
  by_cases h : q = r
  · simp [h]
  · simp [List.lookup_cons, h, beq_eq_false_iff_ne.mpr h]

theorem lookup_insertNode (nodes : List (Place × FileNode)) :
    (insertNode p node nodes).lookup q = if q = p then some node else nodes.lookup q := by
  induction nodes with
  | nil => exact lookup_cons p []
  | cons n nodes ih =>
    obtain ⟨r, old⟩ := n
    by_cases hr : r = p
    · subst hr
      by_cases h : q = r <;> simp [insertNode, lookup_cons, h]
    · by_cases h : q = r
      · subst h; simp [insertNode, hr]
      · simp [insertNode, lookup_cons, hr, h, ih]

theorem insertNode_append {nodes : List (Place × FileNode)} (h : ∀ n ∈ nodes, n.1 ≠ p)
    (more : List (Place × FileNode)) :
    insertNode p node (nodes ++ more) = nodes ++ insertNode p node more := by
  induction nodes with
  | nil => rfl
  | cons n nodes ih =>
    rw [List.forall_mem_cons] at h
    simp only [List.cons_append, insertNode, h.1, ite_false, ih h.2]

theorem mem_insertNode {nodes : List (Place × FileNode)} {n : Place × FileNode}
    (h : n ∈ insertNode p node nodes) : n = (p, node) ∨ n ∈ nodes := by
  induction nodes with
  | nil => simpa [insertNode] using h
  | cons m nodes ih =>
    unfold insertNode at h
    split at h
    · rename_i hm
      subst hm
      rcases List.mem_cons.mp h with rfl | h
      · exact Or.inl rfl
      · exact Or.inr (List.mem_cons_of_mem _ h)
    · rcases List.mem_cons.mp h with rfl | h
      · exact Or.inr List.mem_cons_self
      · exact (ih h).imp_right (List.mem_cons_of_mem _)

theorem filter_insertNode (keep : Place → Bool) (hp : keep p = false)
    (nodes : List (Place × FileNode)) :
    (insertNode p node nodes).filter (fun n => keep n.1) = nodes.filter fun n => keep n.1 := by
  induction nodes with
  | nil => simp [insertNode, hp]
  | cons n nodes ih =>
    obtain ⟨q, old⟩ := n
    by_cases h : q = p
    · simp [insertNode, h, hp]
    · simp only [insertNode, h, ite_false, List.filter_cons, ih]

theorem at?_put_self (store : FileStore) (hp : p.names ≠ []) :
    (store.put p node).at? p = some node := by
  simp [at?, put, hp, lookup_insertNode]

theorem at?_put_of_ne (store : FileStore) (h : q ≠ p) :
    (store.put p node).at? q = store.at? q := by
  simp [at?, put, h, lookup_insertNode]

theorem at?_filter (store : FileStore) (keep : Place → Bool) (h : keep q = true) :
    (⟨store.nodes.filter fun n => keep n.1⟩ : FileStore).at? q = store.at? q := by
  unfold at?
  split
  · rfl
  · induction store.nodes with
    | nil => rfl
    | cons n nodes ih =>
      obtain ⟨r, old⟩ := n
      by_cases hk : keep r = true
      · simp [hk, lookup_cons, ih]
      · have hr : q ≠ r := fun e => hk (e ▸ h)
        simp [hk, lookup_cons, hr, ih]

theorem at?_removeTree {store : FileStore} {path : Path} (hl : store.locate path = .ok p)
    (h : q.within p = false) : (store.removeTree path).at? q = store.at? q := by
  simp only [removeTree, hl]
  exact at?_filter store (fun r => !r.within p) (by simp [h])

/-! ## Places of names -/

theorem locate_name (store : FileStore) {name : String} (hn : name ≠ "..")
    (hs : Path.byteSize name ≤ maxName) (ht : Path.byteSize (Path.text ⟨"", [name]⟩) ≤ maxPath) :
    store.locate ⟨"", [name]⟩ = .ok { absolute := false, names := [name] } := by
  simp [locate, walk, at?, Place.down, Nat.not_lt.mpr ht, Nat.not_lt.mpr hs, hn, mapError_ok]

theorem locate_inside {store : FileStore} {name file : String}
    (hd : store.at? { absolute := false, names := [name] } = some .directory)
    (hn : name ≠ "..") (hf : file ≠ "..") (hs : Path.byteSize name ≤ maxName)
    (hfs : Path.byteSize file ≤ maxName)
    (ht : Path.byteSize (Path.text ⟨"", [name, file]⟩) ≤ maxPath) :
    store.locate ⟨"", [name, file]⟩ = .ok { absolute := false, names := [name, file] } := by
  have hroot : store.at? { absolute := false, names := [] } = some .directory := rfl
  have hrel : (!("".isEmpty)) = false := rfl
  simp [locate, walk, hroot, hd, hrel, Place.down, Nat.not_lt.mpr ht, Nat.not_lt.mpr hs,
    Nat.not_lt.mpr hfs, hn, hf, mapError_ok]

theorem walk_down {store : FileStore} {parts : List String} (h : ∀ part ∈ parts, part ≠ "..")
    (hw : store.walk p parts = .ok q) : q = { p with names := p.names ++ parts } := by
  induction parts generalizing p with
  | nil => cases hw; simp
  | cons part parts ih =>
    rw [List.forall_mem_cons] at h
    unfold walk at hw
    split at hw
    · simp only [h.1, ite_false] at hw
      split at hw
      · cases hw
      · simpa [Place.down] using ih h.2 hw
    · cases hw
    · cases hw

theorem locate_down {store : FileStore} {path : Path} (h : ∀ part ∈ path.parts, part ≠ "..")
    (hl : store.locate path = .ok p) :
    p = { absolute := !path.root.isEmpty, names := path.parts } := by
  unfold locate at hl
  split at hl
  · cases hl
  · cases hw : store.walk { absolute := !path.root.isEmpty, names := [] } path.parts with
    | error cause => simp [hw, mapError_error] at hl
    | ok q =>
      simp only [hw, mapError_ok, Except.ok.injEq] at hl
      rw [← hl, walk_down h hw, List.nil_append]

/-- What is put where nothing was leads no path elsewhere. -/
theorem walk_put {store : FileStore} {r : Place} {parts : List String} (hn : store.at? r = none)
    (hw : store.walk p parts = .ok q) : (store.put r node).walk p parts = .ok q := by
  induction parts generalizing p with
  | nil => exact hw
  | cons part parts ih =>
    unfold walk at hw ⊢
    have hr : p ≠ r ∨ store.at? p = none := by
      by_cases e : p = r
      · exact Or.inr (e ▸ hn)
      · exact Or.inl e
    rcases hr with hr | hr
    · rw [at?_put_of_ne store hr]
      split at hw
      · split at hw
        · cases hw
        · rename_i hsize
          simp only [hsize, ite_false]
          exact ih hw
      · cases hw
      · cases hw
    · rw [hr] at hw
      cases hw

theorem locate_put {store : FileStore} {path : Path} (hn : store.at? p = none)
    (hl : store.locate path = .ok p) : (store.put p node).locate path = .ok p := by
  unfold locate at hl ⊢
  split at hl
  · cases hl
  · rename_i hsize
    simp only [hsize, ite_false]
    cases hw : store.walk { absolute := !path.root.isEmpty, names := [] } path.parts with
    | error cause => simp [hw, mapError_error] at hl
    | ok q =>
      simp only [hw, mapError_ok, Except.ok.injEq] at hl
      subst hl
      simp only [walk_put hn hw, mapError_ok]

/-! ## Growth -/

def Grows (store store' : FileStore) : Prop :=
  ∀ q node, store.at? q = some node → store'.at? q = some node

variable {store store' store'' : FileStore} {path : Path}

theorem Grows.refl (store : FileStore) : store.Grows store := fun _ _ h => h

theorem Grows.trans (h : store.Grows store') (h' : store'.Grows store'') : store.Grows store'' :=
  fun q node hq => h' q node (h q node hq)

theorem grows_put (hn : store.at? p = none) (node : FileNode) : store.Grows (store.put p node) := by
  intro q old hq
  rw [at?_put_of_ne store, hq]
  rintro rfl
  rw [hn] at hq
  cases hq

theorem makeDirectory_eq (h : store.makeDirectory path = .ok store') :
    ∃ p, store.locate path = .ok p ∧ store.at? p = none ∧ store' = store.put p .directory := by
  unfold makeDirectory at h
  cases hl : store.locate path with
  | error fault => rw [hl, error_bind] at h; cases h
  | ok p =>
    rw [hl, ok_bind] at h
    split at h
    · cases h
    · rename_i hn
      cases h
      exact ⟨p, rfl, hn, rfl⟩

/-- Where a path cannot be followed, no directory is there either. -/
theorem ensureDirectory_refused {fault : FileFault} (hl : store.locate path = .error fault) :
    store.ensureDirectory path = .error fault := by
  have hmake : store.makeDirectory path = .error fault := by rw [makeDirectory, hl, error_bind]
  rw [ensureDirectory, hmake]
  by_cases hlong : fault.cause = .tooLong
  · simp [isDirectory, node?, hl, hlong, error_bind]
  · simp [isDirectory, node?, hl, hlong, ok_bind, pure, Except.pure, throw, throwThe,
      MonadExceptOf.throw]

theorem ensureDirectory_of_locate (hl : store.locate path = .ok p) :
    store.ensureDirectory path = match store.at? p with
      | none => .ok (store.put p .directory)
      | some .directory => .ok store
      | some (.file _) => .error ⟨.taken, path.text⟩ := by
  rcases hp : store.at? p with _ | _ | _ <;>
    simp [ensureDirectory, makeDirectory, isDirectory, node?, hl, hp, ok_bind, pure, Except.pure,
      throw, throwThe, MonadExceptOf.throw]

theorem ensureDirectory_cases (h : store.ensureDirectory path = .ok store') :
    ∃ p, store.locate path = .ok p ∧ (store.at? p = none ∧ store' = store.put p .directory ∨
      store.at? p = some .directory ∧ store' = store) := by
  cases hl : store.locate path with
  | error fault => rw [ensureDirectory_refused hl] at h; cases h
  | ok p =>
    rw [ensureDirectory_of_locate hl] at h
    refine ⟨p, rfl, ?_⟩
    split at h
    · rename_i hn
      exact .inl ⟨hn, (Except.ok.inj h).symm⟩
    · rename_i hd
      exact .inr ⟨hd, (Except.ok.inj h).symm⟩
    · cases h

theorem ensureDirectory_fault {fault : FileFault} (h : store.ensureDirectory path = .error fault) :
    store.locate path = .error fault ∨ fault.cause = .taken := by
  cases hl : store.locate path with
  | error cause =>
    cases (ensureDirectory_refused hl).symm.trans h
    exact .inl rfl
  | ok p =>
    rw [ensureDirectory_of_locate hl] at h
    split at h <;> cases h
    exact .inr rfl

instance : IsPreorder FileStore Grows where
  refl := Grows.refl
  trans _ _ _ := Grows.trans

section
variable {F : FileStore → FileStore → Prop} [IsPreorder FileStore F]
  (hF : ∀ (s : FileStore) (p : Place), s.at? p = none → F s (s.put p .directory))
include hF

theorem leaves_ensureDirectory (h : store.ensureDirectory path = .ok store') : F store store' := by
  obtain ⟨p, -, ⟨hn, rfl⟩ | ⟨-, rfl⟩⟩ := ensureDirectory_cases h
  · exact hF store p hn
  · exact refl_of F _

omit hF in
theorem leaves_settle {changed : Except FileFault FileStore}
    (h : ∀ s, changed = .ok s → F store s) : F store (store.settle changed).1 := by
  cases changed with
  | ok s => exact h s rfl
  | error fault => exact refl_of F store

theorem leaves_furnishFrom (root : String) (parts : List String) :
    F store (store.furnishFrom root parts).1 := by
  induction parts generalizing store with
  | nil => exact leaves_settle fun _ => leaves_ensureDirectory hF
  | cons part above ih =>
    unfold furnishFrom
    dsimp only
    split
    · split_ifs
      · exact trans_of F ih (leaves_settle fun _ => leaves_ensureDirectory hF)
      · exact ih
    · exact leaves_settle fun _ => leaves_ensureDirectory hF

/-- Directories are made one by one, each where nothing was. -/
theorem leaves_furnish (path : Path) : F store (store.furnish path).1 :=
  leaves_furnishFrom hF path.root path.parts.reverse

end

theorem furnish_grows (store : FileStore) (path : Path) : store.Grows (store.furnish path).1 :=
  leaves_furnish (fun _ _ hn => grows_put hn _) path

theorem ensureDirectories_eq_ok_iff :
    store.ensureDirectories path = .ok store' ↔ store.furnish path = (store', none) := by
  unfold ensureDirectories
  rcases store.furnish path with ⟨made, _ | fault⟩
  · simp
  · simp

def SameFiles (store store' : FileStore) : Prop :=
  ∀ q content, store'.at? q = some (.file content) ↔ store.at? q = some (.file content)

instance : IsPreorder FileStore SameFiles where
  refl _ _ _ := Iff.rfl
  trans _ _ _ h h' q content := (h' q content).trans (h q content)

theorem furnish_sameFiles (store : FileStore) (path : Path) :
    store.SameFiles (store.furnish path).1 := by
  refine leaves_furnish (fun s p hn q content => ?_) path
  by_cases hq : q = p
  · subst hq
    rw [hn]
    by_cases hp : q.names = []
    · simp [at?, hp] at hn
    · simp [at?_put_self s hp]
  · rw [at?_put_of_ne s hq]

theorem createFile_eq (h : store.createFile path = .ok store') :
    ∃ p, store.locate path = .ok p ∧ store.at? p = none ∧
      store' = store.put p (.file ByteArray.empty) := by
  unfold createFile at h
  cases hl : store.locate path with
  | error fault => rw [hl, error_bind] at h; cases h
  | ok p =>
    rw [hl, ok_bind] at h
    split at h
    · cases h
    · rename_i hn
      cases h
      exact ⟨p, rfl, hn, rfl⟩

def contentAt (store : FileStore) (p : Place) : ByteArray :=
  match store.at? p with
  | some (.file content) => content
  | _ => .empty

theorem SameFiles.contentAt (h : store.SameFiles store') (p : Place) :
    store'.contentAt p = store.contentAt p := by
  have hiff := h p
  unfold FileStore.contentAt
  split
  · rename_i content hc
    rw [(hiff content).mp hc]
  · rename_i hn
    split
    · rename_i content hc
      exact absurd ((hiff content).mpr hc) (hn content)
    · rfl

theorem touchFile_spec (h : store.touchFile path = .ok store') : store.Grows store' ∧
    ∃ p, store'.locate path = .ok p ∧ store'.at? p = some (.file (store.contentAt p)) := by
  unfold touchFile at h
  cases hl : store.locate path with
  | error fault => rw [hl, error_bind] at h; cases h
  | ok p =>
    rw [hl, ok_bind] at h
    split at h
    · rename_i content hc
      cases h
      exact ⟨.refl store, p, hl, by rw [contentAt, hc]⟩
    · cases h
    · rename_i hn
      cases h
      have hp : p.names ≠ [] := fun hp => by simp [at?, hp] at hn
      exact ⟨grows_put hn _, p, locate_put hn hl, by rw [contentAt, hn, at?_put_self _ hp]⟩

theorem writeFile_eq {content : ByteArray} (h : store.writeFile path content = .ok store') :
    ∃ p, store.locate path = .ok p ∧ store' = store.put p (.file content) := by
  unfold writeFile at h
  cases hl : store.locate path with
  | error fault => rw [hl, error_bind] at h; cases h
  | ok p =>
    rw [hl, ok_bind] at h
    split at h
    · cases h
    · cases h
      exact ⟨p, rfl, rfl⟩

end

end FileStore

end BackendFuzz
