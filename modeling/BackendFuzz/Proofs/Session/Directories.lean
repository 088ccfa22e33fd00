import BackendFuzz.Proofs.Session.Tree

/-!
# Making directories

A path without double dots leads to one place, whatever the store holds. The directories on
the way there are made up to a file among them or a name that is too long, and nothing else
changes. Whether all of them can be made, and how far it goes if not, follows from the files
on the way alone.
-/

namespace BackendFuzz

namespace Path

/-- No part leads back up. -/
def Straight (path : Path) : Prop := ∀ part ∈ path.parts, part ≠ ".."

instance (path : Path) : Decidable path.Straight :=
  inferInstanceAs (Decidable (∀ part ∈ path.parts, part ≠ ".."))

def place (path : Path) : Place := { absolute := !path.root.isEmpty, names := path.parts }

theorem Straight.parent {path : Path} (h : path.Straight) : path.parent.Straight :=
  fun part hp => h part (List.dropLast_subset _ hp)

/-! ## Lengths -/

theorem size_le_four (n : Nat) : (if isLooseByte n then 1 else Text.byteCount n) ≤ 4 := by
  unfold Text.byteCount
  split_ifs <;> omega

theorem size_of_standIn {n : Nat} (h : Text.isStandIn n = true) :
    (if isLooseByte n then 1 else Text.byteCount n) = 4 := by
  simp only [Text.isStandIn, Bool.and_eq_true, decide_eq_true_eq] at h
  have hloose : isLooseByte n = false := by
    rw [Bool.eq_false_iff]
    simp only [isLooseByte, ne_eq, Bool.and_eq_true, decide_eq_true_eq]
    omega
  rw [hloose, if_neg (by simp)]
  unfold Text.byteCount
  split_ifs <;> omega

theorem standIn_of_together {a b : Char} {n : Nat} (h : Text.together? a b = some n) :
    Text.isStandIn n = true := by
  unfold Text.together? at h
  dsimp only at h
  split at h
  · rename_i hall
    rw [Option.some.injEq] at h
    simp only [Bool.and_eq_true] at hall
    exact h ▸ hall.2
  · cases h

/-- A half at the end may become one character with what comes next, but this is never shorter. -/
theorem byteSize_append_le (cs ds : List Char) :
    byteSize (String.ofList cs) ≤ byteSize (String.ofList (cs ++ ds)) := by
  simp only [byteSize, String.toList_ofList]
  induction cs using Text.points.induct with
  | case1 a b rest n hn ih =>
    simp only [List.cons_append, Text.points, hn, List.map_cons, List.sum_cons]
    omega
  | case2 a b rest hn ih =>
    simp only [List.cons_append, Text.points, hn, List.map_cons, List.sum_cons] at ih ⊢
    omega
  | case3 a =>
    cases ds with
    | nil => simp
    | cons b ds =>
      simp only [List.cons_append, List.nil_append, Text.points]
      split
      · rename_i n hn
        simp only [List.map_cons, List.map_nil, List.sum_cons, List.sum_nil,
          size_of_standIn (standIn_of_together hn)]
        have := size_le_four (Text.point a)
        omega
      · simp only [List.map_cons, List.map_nil, List.sum_cons, List.sum_nil]
        omega
  | case4 => simp [Text.points]

theorem byteSize_le {name longer : String} (h : name.toList <+: longer.toList) :
    byteSize name ≤ byteSize longer := by
  obtain ⟨rest, hrest⟩ := h
  have hle := byteSize_append_le name.toList rest
  rwa [hrest, String.ofList_toList, String.ofList_toList] at hle

theorem intercalate_concat_longer (names : List String) (name : String) :
    ("/".intercalate names).toList <+: ("/".intercalate (names ++ [name])).toList := by
  induction names with
  | nil => simp
  | cons first names ih =>
    cases names with
    | nil =>
      rw [String.intercalate_singleton, List.singleton_append, String.intercalate_cons_cons,
        String.toList_append, String.toList_append, List.append_assoc]
      exact List.prefix_append _ _
    | cons second names =>
      simp only [List.cons_append, String.intercalate_cons_cons, String.toList_append] at ih ⊢
      exact (List.prefix_append_right_inj _).mpr ih

/-- The path above is not too long if a path is not. -/
theorem size_above {root name : String} {parts : List String}
    (h : byteSize (text ⟨root, parts ++ [name]⟩) ≤ FileStore.maxPath) :
    byteSize (text ⟨root, parts⟩) ≤ FileStore.maxPath := by
  by_cases hdot : root.isEmpty && parts.isEmpty
  · have htext : text ⟨root, parts⟩ = "." := by rw [text, if_pos hdot]
    rw [htext]
    decide
  · refine Nat.le_trans (byteSize_le ?_) h
    have hlonger : (root.isEmpty && (parts ++ [name]).isEmpty) = false := by simp
    rw [text, text, if_neg hdot, if_neg (by simp [hlonger]), String.toList_append,
      String.toList_append]
    exact (List.prefix_append_right_inj _).mpr (intercalate_concat_longer parts name)

end Path

namespace FileStore

section
variable {s s' : FileStore} {p q : Place} {path : Path}

/-- Everything is in directories. -/
def Tree (s : FileStore) : Prop := ∀ p node, s.at? p = some node → s.Reached p

/-! ## The way to a place -/

def fileAt (s : FileStore) (p : Place) : Bool :=
  match s.at? p with
  | some (.file _) => true
  | _ => false

/-- Where the parts of a path lead once directories are made where nothing is. -/
def aim (s : FileStore) (p : Place) : List String → Except FileCause Place
  | [] => .ok p
  | part :: rest =>
    if s.fileAt p then .error .notDirectory
    else if maxName < Path.byteSize part then .error .tooLong
    else s.aim (p.down part) rest

theorem aim_concat (s : FileStore) (p : Place) (parts : List String) (name : String) :
    s.aim p (parts ++ [name]) = s.aim p parts >>= fun d => s.aim d [name] := by
  induction parts generalizing p with
  | nil => rfl
  | cons part parts ih =>
    rw [List.cons_append, aim, aim, ih]
    split_ifs <;> rfl

theorem aim_down {parts : List String} (h : s.aim p parts = .ok q) :
    q = { p with names := p.names ++ parts } := by
  induction parts generalizing p with
  | nil => cases h; simp
  | cons part parts ih =>
    unfold aim at h
    split_ifs at h
    simpa [Place.down] using ih h

theorem within_of_append (p : Place) (names : List String) :
    Place.within { p with names := p.names ++ names } p = true :=
  Place.within_iff.mpr ⟨rfl, rfl, List.prefix_append _ _⟩

/-- Only files on the way matter. -/
theorem aim_congr {parts : List String} (h : ∀ t,
    Place.within { p with names := p.names ++ parts } t = true → s'.fileAt t = s.fileAt t) :
    s'.aim p parts = s.aim p parts := by
  induction parts generalizing p with
  | nil => rfl
  | cons part parts ih =>
    rw [aim, aim, h p (within_of_append p _), ih (by simpa [Place.down] using h)]

/-- Where the directories along the parts of a path end: above a file, or before a name that is too
long. -/
def foot (s : FileStore) (p : Place) : List String → Place
  | [] => if s.fileAt p then { p with names := p.names.dropLast } else p
  | part :: rest =>
    if s.fileAt p then { p with names := p.names.dropLast }
    else if maxName < Path.byteSize part then p
    else s.foot (p.down part) rest

theorem foot_congr {parts : List String} (h : ∀ t,
    Place.within { p with names := p.names ++ parts } t = true → s'.fileAt t = s.fileAt t) :
    s'.foot p parts = s.foot p parts := by
  induction parts generalizing p with
  | nil => rw [foot, foot, h p (within_of_append p [])]
  | cons part parts ih =>
    rw [foot, foot, h p (within_of_append p _), ih (by simpa [Place.down] using h)]

theorem foot_concat (s : FileStore) (p : Place) (parts : List String) (name : String) :
    s.foot p (parts ++ [name]) = match s.aim p parts with
      | .ok q => s.foot q [name]
      | .error _ => s.foot p parts := by
  induction parts generalizing p with
  | nil => rfl
  | cons part parts ih =>
    rw [List.cons_append, aim, foot, foot, ih]
    split_ifs <;> rfl

theorem foot_of_aim {parts : List String} (h : s.aim p parts = .ok q) :
    s.foot p parts = s.foot q [] := by
  induction parts generalizing p with
  | nil => cases h; rfl
  | cons part parts ih =>
    unfold aim at h
    split_ifs at h with hfile hsize
    rw [← ih h, foot, if_neg hfile, if_neg hsize]

theorem within_above (p : Place) : p.within { p with names := p.names.dropLast } = true :=
  Place.within_iff.mpr ⟨rfl, rfl, List.dropLast_prefix _⟩

theorem within_foot (s : FileStore) (p : Place) (parts : List String) :
    Place.within { p with names := p.names ++ parts } (s.foot p parts) = true := by
  induction parts generalizing p with
  | nil =>
    rw [foot, List.append_nil]
    split
    · exact within_above p
    · exact within_self p
  | cons part parts ih =>
    rw [foot]
    split_ifs
    · exact Place.within_trans (within_of_append p _) (within_above p)
    · exact within_of_append p _
    · simpa [Place.down] using ih (p.down part)

theorem foot_name_within (h : s.fileAt p = false) (name : String) :
    (s.foot p [name]).within p = true := by
  have hup : Place.mk p.absolute p.above (p.names ++ [name]).dropLast = p := by simp
  rw [foot, h, if_neg Bool.false_ne_true, foot, Place.down, hup]
  split_ifs
  · exact within_self p
  · exact within_self p
  · exact within_of_append p [name]

/-- Following a path either meets a place where nothing is or goes as if there were none. -/
theorem walk_eq_aim {parts : List String} (hparts : ∀ part ∈ parts, part ≠ "..")
    (h : s.walk p parts ≠ .error .absent) : s.walk p parts = s.aim p parts := by
  induction parts generalizing p with
  | nil => rfl
  | cons part parts ih =>
    rw [List.forall_mem_cons] at hparts
    unfold walk at h ⊢
    unfold aim fileAt
    split
    · rename_i hd
      simp only [hd, hparts.1, ite_false] at h ⊢
      split
      · rfl
      · rename_i hsize
        rw [if_neg hsize] at h
        exact ih hparts.2 h
    · rename_i content hf
      simp [hf]
    · rename_i hn
      simp only [hn] at h
      exact absurd rfl h

/-- A way through directories is followed to its end. -/
theorem walk_of_aim {parts : List String} (hparts : ∀ part ∈ parts, part ≠ "..")
    (hq : s.Reached q) (h : s.aim p parts = .ok q) : s.walk p parts = .ok q := by
  induction parts generalizing p with
  | nil => exact h
  | cons part parts ih =>
    rw [List.forall_mem_cons] at hparts
    have hd : s.at? p = some .directory := by
      have hdown := aim_down h
      refine hq p (hdown ▸ within_of_append p _) ?_
      rintro rfl
      simpa using congrArg (·.names.length) hdown
    unfold aim at h
    unfold walk
    rw [hd]
    split_ifs at h with hfile hsize
    rw [if_neg hsize, if_neg hparts.1]
    exact ih hparts.2 h

/-! ## What is in the way -/

/-- Why a path cannot be made a directory with those above it. -/
def barrier (s : FileStore) (path : Path) : Option FileCause :=
  if maxPath < Path.byteSize path.text then some .tooLong
  else
    match s.aim (Path.place ⟨path.root, []⟩) path.parts with
    | .error cause => some cause
    | .ok p => if s.fileAt p then some .taken else none

def footing (s : FileStore) (path : Path) : Place :=
  if maxPath < Path.byteSize path.text then Path.place ⟨path.root, []⟩
  else s.foot (Path.place ⟨path.root, []⟩) path.parts

theorem footing_congr (h : ∀ t, path.place.within t = true → s'.fileAt t = s.fileAt t) :
    s'.footing path = s.footing path := by
  have hstart : path.place = { Path.place ⟨path.root, []⟩ with names := [] ++ path.parts } := rfl
  rw [footing, footing, foot_congr (hstart ▸ h)]

theorem within_footing (s : FileStore) (path : Path) :
    path.place.within (s.footing path) = true := by
  unfold footing
  split
  · exact Place.within_iff.mpr ⟨rfl, rfl, List.nil_prefix⟩
  · exact within_foot s (Path.place ⟨path.root, []⟩) path.parts

theorem barrier_congr (h : ∀ t, path.place.within t = true → s'.fileAt t = s.fileAt t) :
    s'.barrier path = s.barrier path := by
  have hstart : path.place = { Path.place ⟨path.root, []⟩ with names := [] ++ path.parts } := rfl
  rw [barrier, barrier, aim_congr (hstart ▸ h)]
  split
  · rfl
  · split
    · rfl
    · rename_i p hp
      have hplace : p = path.place := aim_down hp
      rw [hplace, h path.place (within_self _)]

theorem barrier_eq_none (h : s.barrier path = none) :
    ¬ maxPath < Path.byteSize path.text ∧
      s.aim (Path.place ⟨path.root, []⟩) path.parts = .ok path.place ∧
      s.fileAt path.place = false := by
  unfold barrier at h
  split at h
  · cases h
  · rename_i hsize
    cases haim : s.aim (Path.place ⟨path.root, []⟩) path.parts with
    | error cause => simp [haim] at h
    | ok p =>
      obtain rfl : p = path.place := aim_down haim
      exact ⟨hsize, rfl, by simpa [haim] using h⟩

theorem footing_of_clear (h : s.barrier path = none) : s.footing path = path.place := by
  obtain ⟨hsize, haim, hfile⟩ := barrier_eq_none h
  rw [footing, if_neg hsize, foot_of_aim haim, foot, hfile, if_neg Bool.false_ne_true]

structure Furnished (s : FileStore) (p : Place) (s' : FileStore) : Prop where
  grows : s.Grows s'
  at?_eq (t : Place) : s'.at? t = if p.within t then some .directory else s.at? t

structure Furnishing (s : FileStore) (path : Path) (r : FileStore × Option FileFault) : Prop where
  furnished : s.Furnished (s.footing path) r.1
  refused : r.2.map (·.cause) = s.barrier path

theorem furnished_of_there (hp : s.Reached p) (hd : s.at? p = some .directory) :
    s.Furnished p s := by
  refine ⟨.refl s, fun t => ?_⟩
  split
  · rename_i ht
    by_cases he : t = p
    · rw [he, hd]
    · exact hp t ht he
  · rfl

theorem furnished_put (hp : s.Reached p) (hn : s.at? p = none) :
    s.Furnished p (s.put p .directory) := by
  refine ⟨grows_put hn _, fun t => ?_⟩
  by_cases he : t = p
  · rw [he, at?_put_self s (names_ne_nil_of_absent hn), if_pos (within_self p)]
  · rw [at?_put_of_ne s he]
    split
    · rename_i ht
      exact hp t ht he
    · rfl

theorem locate_refused {cause : FileCause} (hsize : ¬ maxPath < Path.byteSize path.text)
    (hw : s.walk (Path.place ⟨path.root, []⟩) path.parts = .error cause) :
    s.locate path = .error ⟨cause, path.text⟩ := by
  rw [Path.place] at hw
  simp [locate, hsize, hw, mapError_error]

theorem furnishing_refused {fault : FileFault} (h : s.ensureDirectory path = .error fault)
    (hb : s.barrier path = some fault.cause) (hp : s.Reached (s.footing path))
    (hd : s.at? (s.footing path) = some .directory) :
    Furnishing s path (s.settle (s.ensureDirectory path)) := by
  rw [h]
  exact ⟨furnished_of_there hp hd, hb.symm⟩

theorem furnishing_made (h : s.ensureDirectory path = .ok s') (hb : s.barrier path = none)
    (hf : s.Furnished path.place s') : Furnishing s path (s.settle (s.ensureDirectory path)) := by
  rw [h]
  exact ⟨(footing_of_clear hb).symm ▸ hf, hb.symm⟩

theorem above_file {content : ByteArray} (hp : s.Reached p) (h : s.at? p = some (.file content)) :
    s.Reached { p with names := p.names.dropLast } ∧
      s.at? { p with names := p.names.dropLast } = some .directory := by
  have hne : p.names ≠ [] := fun he => by simp [at?, he] at h
  refine ⟨hp.above (within_above p), hp _ (within_above p) fun he => ?_⟩
  have hlength := congrArg (·.names.length) he
  rw [List.length_dropLast] at hlength
  have := List.length_pos_iff.mpr hne
  omega

/-- Where a path cannot be followed though nothing is missing, directories go as far as they can. -/
theorem foot_there {parts : List String} {cause : FileCause} (hp : s.Reached p)
    (hparts : ∀ part ∈ parts, part ≠ "..") (hw : s.walk p parts = .error cause)
    (hcause : cause ≠ .absent) :
    s.Reached (s.foot p parts) ∧ s.at? (s.foot p parts) = some .directory := by
  induction parts generalizing p with
  | nil => cases hw
  | cons part parts ih =>
    rw [List.forall_mem_cons] at hparts
    unfold walk at hw
    unfold foot
    split at hw
    · rename_i hd
      have hfile : s.fileAt p = false := by rw [fileAt, hd]
      rw [hfile, if_neg Bool.false_ne_true]
      split_ifs at hw ⊢ with hsize
      · exact ⟨hp, hd⟩
      · exact absurd ‹_› hparts.1
      · exact ih (hp.down hd part) hparts.2 hw
    · rename_i content hf
      have hfile : s.fileAt p = true := by rw [fileAt, hf]
      rw [if_pos hfile]
      exact above_file hp hf
    · cases hw
      exact absurd rfl hcause

def Open (s : FileStore) (path : Path) : Prop :=
  ∀ fault, s.locate path = .error fault → fault.cause ≠ .absent

theorem furnishing_ensureDirectory (hpath : path.Straight) (h : s.Open path) :
    Furnishing s path (s.settle (s.ensureDirectory path)) := by
  have hroot : s.Reached (Path.place ⟨path.root, []⟩) := reached_of_names_nil rfl
  by_cases hsize : maxPath < Path.byteSize path.text
  · have hl : s.locate path = .error ⟨.tooLong, path.text⟩ := by simp [locate, hsize]
    have hfoot : s.footing path = Path.place ⟨path.root, []⟩ := if_pos hsize
    refine furnishing_refused (ensureDirectory_refused hl) (by simp [barrier, hsize]) ?_ ?_
    · rwa [hfoot]
    · rw [hfoot]
      rfl
  have hfoot : s.footing path = s.foot (Path.place ⟨path.root, []⟩) path.parts := if_neg hsize
  have haim := walk_eq_aim hpath fun hw => h _ (locate_refused hsize hw) rfl
  cases hw : s.walk (Path.place ⟨path.root, []⟩) path.parts with
  | error cause =>
    rw [hw] at haim
    have hl := locate_refused hsize hw
    have hthere := foot_there hroot hpath hw (h _ hl)
    rw [← hfoot] at hthere
    exact furnishing_refused (ensureDirectory_refused hl) (by simp [barrier, hsize, ← haim])
      hthere.1 hthere.2
  | ok p =>
    rw [hw] at haim
    have hl : s.locate path = .ok p := locate_of_walk hsize hw
    obtain rfl : p = path.place := locate_down hpath hl
    have hreached := locate_reached hl
    have hensure := ensureDirectory_of_locate hl
    have hbarrier : s.barrier path = if s.fileAt path.place then some .taken else none := by
      rw [barrier, if_neg hsize, ← haim]
    rcases hp : s.at? path.place with _ | content | _
    all_goals
      rw [hp] at hensure
      rw [fileAt, hp] at hbarrier
    · exact furnishing_made hensure hbarrier (furnished_put hreached hp)
    · have habove := above_file hreached hp
      have hend : s.footing path = { path.place with names := path.place.names.dropLast } := by
        rw [hfoot, foot_of_aim haim.symm, foot, fileAt, hp]
        rfl
      rw [← hend] at habove
      exact furnishing_refused hensure hbarrier habove.1 habove.2
    · exact furnishing_made hensure hbarrier (furnished_of_there hreached hp)

/-- Unless something is missing on the way, nothing is done about the directories above. -/
theorem furnishFrom_cons {root part : String} {above : List String}
    (h : s.Open ⟨root, (part :: above).reverse⟩) : s.furnishFrom root (part :: above) =
      s.settle (s.ensureDirectory ⟨root, (part :: above).reverse⟩) := by
  unfold furnishFrom
  dsimp only
  split
  · rename_i text hf
    rcases ensureDirectory_fault hf with hl | ht
    · exact absurd rfl (h _ hl)
    · cases ht
  · rfl

theorem locate_absent {fault : FileFault} (hl : s.locate path = .error fault)
    (hf : fault.cause = .absent) : ¬ maxPath < Path.byteSize path.text ∧
      s.walk (Path.place ⟨path.root, []⟩) path.parts = .error .absent := by
  unfold locate at hl
  split at hl
  · cases hl; cases hf
  · rename_i hsize
    refine ⟨hsize, ?_⟩
    cases hw : s.walk (Path.place ⟨path.root, []⟩) path.parts with
    | ok p => rw [Path.place] at hw; simp [hw, mapError_ok] at hl
    | error cause =>
      rw [Path.place] at hw
      simp only [hw, mapError_error, Except.error.injEq] at hl
      rw [← hf, ← hl]

def finishing (path : Path) (above : FileStore × Option FileFault) : FileStore × Option FileFault :=
  if above.2.isNone then above.1.settle (above.1.ensureDirectory path) else above

theorem furnishFrom_missing {root part : String} {above : List String} {fault : FileFault}
    (hl : s.locate ⟨root, (part :: above).reverse⟩ = .error fault) (hf : fault.cause = .absent) :
    s.furnishFrom root (part :: above) =
      finishing ⟨root, (part :: above).reverse⟩ (s.furnishFrom root above) := by
  obtain ⟨cause, text⟩ := fault
  cases hf
  rw [furnishFrom, ensureDirectory_refused hl, finishing]

theorem Furnished.reached (h : s.Furnished p s') : s'.Reached p := fun q hq _ => by
  rw [h.at?_eq q, if_pos hq]

theorem Furnished.there (h : s.Furnished p s') : s'.at? p = some .directory := by
  rw [h.at?_eq p, if_pos (within_self p)]

theorem Furnished.fileAt (h : s.Furnished p s') (t : Place) : s'.fileAt t = s.fileAt t := by
  have ht := h.at?_eq t
  split at ht
  · cases hold : s.at? t with
    | none => simp [FileStore.fileAt, ht, hold]
    | some node =>
      obtain rfl := Option.some.inj ((h.grows t node hold).symm.trans ht)
      simp [FileStore.fileAt, ht, hold]
  · rw [FileStore.fileAt, FileStore.fileAt, ht]

theorem Furnished.sameFiles (h : s.Furnished p s') : s.SameFiles s' := by
  intro q content
  refine ⟨fun hq => ?_, h.grows q _⟩
  have ht := h.at?_eq q
  split at ht
  · cases hq.symm.trans ht
  · exact ht ▸ hq

theorem Furnished.trans {s'' : FileStore} (h : s.Furnished p s') (h' : s'.Furnished q s'')
    (hq : q.within p = true) : s.Furnished q s'' := by
  refine ⟨h.grows.trans h'.grows, fun t => ?_⟩
  rw [h'.at?_eq t, h.at?_eq t]
  by_cases ht : p.within t = true
  · rw [if_pos ht, if_pos (Place.within_trans hq ht), if_pos (Place.within_trans hq ht)]
  · rw [if_neg ht]

/-- In a tree nothing is where the way to a missing place ends. -/
theorem absent_of_missing (hs : s.Tree) {parts : List String} {name : String}
    (hparts : ∀ part ∈ parts ++ [name], part ≠ "..") (haim : s.aim p parts = .ok q)
    (hw : s.walk p (parts ++ [name]) = .error .absent) : s.at? q = none := by
  rw [List.forall_mem_append, List.forall_mem_singleton] at hparts
  rw [Option.eq_none_iff_forall_ne_some]
  intro node hq
  rw [walk_concat, walk_of_aim hparts.1 (hs q node hq) haim, ok_bind, walk, hq] at hw
  cases node with
  | file content => cases hw
  | directory =>
    dsimp only at hw
    split_ifs at hw <;> cases hw

section
variable {root name : String} {parts : List String}

/-- What is in the way above is in the way, and directories end there. -/
theorem barrier_below {cause : FileCause} (hs : s.Tree)
    (hpath : Path.Straight ⟨root, parts ++ [name]⟩)
    (hsize : ¬ maxPath < Path.byteSize (Path.text ⟨root, parts ++ [name]⟩))
    (hw : s.walk (Path.place ⟨root, []⟩) (parts ++ [name]) = .error .absent)
    (h : s.barrier ⟨root, parts⟩ = some cause) :
    s.barrier ⟨root, parts ++ [name]⟩ = some cause ∧
      s.footing ⟨root, parts ++ [name]⟩ = s.footing ⟨root, parts⟩ := by
  have hsize' : ¬ maxPath < Path.byteSize (Path.text ⟨root, parts⟩) :=
    Nat.not_lt.mpr (Path.size_above (Nat.not_lt.mp hsize))
  rw [barrier, if_neg hsize'] at h
  rw [barrier, footing, footing, if_neg hsize, if_neg hsize, if_neg hsize', aim_concat, foot_concat]
  cases haim : s.aim (Path.place ⟨root, []⟩) parts with
  | error cause' =>
    simp only [haim] at h
    exact ⟨h, rfl⟩
  | ok d => simp [haim, fileAt, absent_of_missing hs hpath haim hw] at h

theorem footing_within (hsize : ¬ maxPath < Path.byteSize (Path.text ⟨root, parts ++ [name]⟩))
    (h : s.barrier ⟨root, parts⟩ = none) :
    (s.footing ⟨root, parts ++ [name]⟩).within (Path.place ⟨root, parts⟩) = true := by
  obtain ⟨-, haim, hfile⟩ := barrier_eq_none h
  rw [footing, if_neg hsize, foot_concat, haim]
  exact foot_name_within hfile name

/-- Once the directory above is there, only the last name can stop a path. -/
theorem Furnished.walk (hpath : Path.Straight ⟨root, parts ++ [name]⟩)
    (hb : s.barrier ⟨root, parts⟩ = none) (h : s.Furnished (Path.place ⟨root, parts⟩) s') :
    s'.walk (Path.place ⟨root, []⟩) (parts ++ [name]) =
      if maxName < Path.byteSize name then .error .tooLong
      else .ok (Path.place ⟨root, parts ++ [name]⟩) := by
  have haim : s'.aim (Path.place ⟨root, []⟩) parts = .ok (Path.place ⟨root, parts⟩) := by
    rw [aim_congr fun t _ => h.fileAt t]
    exact (barrier_eq_none hb).2.1
  have hparts : ∀ part ∈ parts, part ≠ ".." := fun part hp =>
    hpath part (List.mem_append_left _ hp)
  have hname : name ≠ ".." := hpath name (by simp)
  rw [walk_concat, walk_of_aim hparts h.reached haim, ok_bind, FileStore.walk, h.there]
  dsimp only
  rw [if_neg hname]
  rfl

theorem Furnishing.below (hs : s.Tree) (hpath : Path.Straight ⟨root, parts ++ [name]⟩)
    {fault : FileFault} (hl : s.locate ⟨root, parts ++ [name]⟩ = .error fault)
    (hf : fault.cause = .absent) {r : FileStore × Option FileFault}
    (h : Furnishing s ⟨root, parts⟩ r) :
    Furnishing s ⟨root, parts ++ [name]⟩ (finishing ⟨root, parts ++ [name]⟩ r) := by
  obtain ⟨hsize, hw⟩ := locate_absent hl hf
  rcases r with ⟨made, _ | refusal⟩
  · have hb : s.barrier ⟨root, parts⟩ = none := h.refused.symm
    have hfur : s.Furnished (Path.place ⟨root, parts⟩) made := footing_of_clear hb ▸ h.furnished
    have hopen : made.Open ⟨root, parts ++ [name]⟩ := by
      intro fault hl hf
      have hw := (locate_absent hl hf).2
      rw [hfur.walk hpath hb] at hw
      split_ifs at hw
      cases hw
    have hlast := furnishing_ensureDirectory hpath hopen
    have hfoot : made.footing ⟨root, parts ++ [name]⟩ = s.footing ⟨root, parts ++ [name]⟩ :=
      footing_congr fun t _ => hfur.fileAt t
    have hsame : made.barrier ⟨root, parts ++ [name]⟩ = s.barrier ⟨root, parts ++ [name]⟩ :=
      barrier_congr fun t _ => hfur.fileAt t
    exact ⟨hfur.trans (hfoot ▸ hlast.furnished) (footing_within hsize hb),
      hlast.refused.trans hsame⟩
  · obtain ⟨hb, hfoot⟩ := barrier_below hs hpath hsize hw h.refused.symm
    exact ⟨hfoot ▸ h.furnished, hb.symm⟩

end

/-- What stops directories from being made at a path is a file or a name too long. -/
theorem furnishing_furnishFrom (hs : s.Tree) (root : String) {rev : List String}
    (hparts : ∀ part ∈ rev, part ≠ "..") :
    Furnishing s ⟨root, rev.reverse⟩ (s.furnishFrom root rev) := by
  -- The parts come last one first, so the induction goes up from the place.
  induction rev with
  | nil =>
    have hstraight : Path.Straight ⟨root, []⟩ := List.forall_mem_nil _
    refine furnishing_ensureDirectory hstraight fun fault hl hf => ?_
    cases (locate_absent hl hf).2
  | cons part above ih =>
    have hpath : Path.Straight ⟨root, (part :: above).reverse⟩ :=
      fun name hname => hparts name (List.mem_reverse.mp hname)
    rw [List.forall_mem_cons] at hparts
    by_cases hopen : s.Open ⟨root, (part :: above).reverse⟩
    · rw [furnishFrom_cons hopen]
      exact furnishing_ensureDirectory hpath hopen
    · simp only [Open, not_forall, ne_eq, not_not] at hopen
      obtain ⟨fault, hl, hf⟩ := hopen
      rw [furnishFrom_missing hl hf]
      rw [List.reverse_cons] at hpath hl ⊢
      exact (ih hparts.2).below hs hpath hl hf

theorem furnishing_furnish (hs : s.Tree) (hpath : path.Straight) :
    Furnishing s path (s.furnish path) := by
  have hparts : ∀ part ∈ path.parts.reverse, part ≠ ".." := fun part hp =>
    hpath part (List.mem_reverse.mp hp)
  have h := furnishing_furnishFrom hs path.root hparts
  rwa [List.reverse_reverse] at h

/-! ## Below the directory -/

theorem Furnished.locate (hpath : path.Straight) (hb : s.barrier path.parent = none)
    (h : s.Furnished path.parent.place s') : s'.locate path =
      if maxPath < Path.byteSize path.text ∨ maxName < Path.byteSize path.name then
        .error ⟨.tooLong, path.text⟩
      else .ok path.place := by
  obtain ⟨root, parts⟩ := path
  by_cases hsize : maxPath < Path.byteSize (Path.text ⟨root, parts⟩)
  · simp [FileStore.locate, hsize]
  rcases List.eq_nil_or_concat parts with rfl | ⟨above, name, rfl⟩
  · have hempty : ¬ maxName < Path.byteSize "" := by decide
    have hname : ¬ maxName < Path.byteSize (Path.name ⟨root, []⟩) := hempty
    simp [FileStore.locate, hsize, hname, FileStore.walk, mapError_ok, Path.place]
  · rw [List.concat_eq_append] at hpath hsize ⊢
    have hparent : Path.parent ⟨root, above ++ [name]⟩ = ⟨root, above⟩ :=
      Path.parent_child ⟨root, above⟩ name
    have hname : Path.name ⟨root, above ++ [name]⟩ = name := by simp [Path.name]
    rw [List.concat_eq_append, hparent] at hb h
    have hw := h.walk hpath hb
    rw [hname]
    by_cases hlong : maxName < Path.byteSize name
    · rw [if_pos hlong] at hw
      rw [if_pos (Or.inr hlong), locate_refused hsize hw]
    · rw [if_neg hlong] at hw
      rw [if_neg (by simp [hsize, hlong]), locate_of_walk hsize hw]

/-- If the directory above can be made, a path leads to its place, or nothing is there. -/
theorem node?_of_barrier (hs : s.Tree) (hpath : path.Straight)
    (hb : s.barrier path.parent = none)
    (hsize : ¬ (maxPath < Path.byteSize path.text ∨ maxName < Path.byteSize path.name)) :
    s.node? path = .ok (s.at? path.place) := by
  obtain ⟨hlong, hname⟩ := not_or.mp hsize
  have haim : s.aim (Path.place ⟨path.root, []⟩) path.parts = .ok path.place := by
    obtain ⟨-, habove, hfile⟩ := barrier_eq_none hb
    obtain ⟨root, parts⟩ := path
    rcases List.eq_nil_or_concat parts with rfl | ⟨above, name, rfl⟩
    · exact habove
    · have hlast : Path.name ⟨root, above ++ [name]⟩ = name := by simp [Path.name]
      rw [List.concat_eq_append] at habove hfile hname ⊢
      have hparent : Path.parent ⟨root, above ++ [name]⟩ = ⟨root, above⟩ :=
        Path.parent_child ⟨root, above⟩ name
      rw [hparent] at habove hfile
      rw [hlast] at hname
      rw [aim_concat, habove, ok_bind, aim, hfile, if_neg hname]
      rfl
  cases hl : s.locate path with
  | ok p => rw [node?_of_locate hl, locate_down hpath hl]; rfl
  | error fault =>
    -- A way that is clear stops only where nothing is.
    have hw : s.walk (Path.place ⟨path.root, []⟩) path.parts = .error .absent := by
      by_contra hw
      have hok := (walk_eq_aim hpath hw).trans haim
      cases hl.symm.trans (locate_of_walk hlong hok)
    have habsent : fault.cause = .absent := by
      cases hl.symm.trans (locate_refused hlong hw)
      rfl
    have hnone : s.at? path.place = none := by
      rw [Option.eq_none_iff_forall_ne_some]
      intro node hp
      cases hw.symm.trans (walk_of_aim hpath (hs _ node hp) haim)
    simp [node?, hl, habsent, hnone]

theorem Reached.grows (h : s.Reached p) (hg : s.Grows s') : s'.Reached p := fun q hq hne =>
  hg q .directory (h q hq hne)

theorem Tree.furnished (hs : s.Tree) (h : s.Furnished p s') : s'.Tree := by
  intro t node ht
  by_cases hw : p.within t = true
  · exact h.reached.above hw
  · rw [h.at?_eq t, if_neg hw] at ht
    exact (hs t node ht).grows h.grows

theorem Tree.put (hs : s.Tree) (hp : s.Reached p) (hn : s.at? p = none) (node : FileNode) :
    (s.put p node).Tree := by
  have hg := grows_put hn node
  intro t node' ht
  by_cases he : t = p
  · exact he ▸ hp.grows hg
  · rw [at?_put_of_ne s he] at ht
    exact (hs t node' ht).grows hg

end

end FileStore

end BackendFuzz
