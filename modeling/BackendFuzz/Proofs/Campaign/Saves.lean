import BackendFuzz.Proofs.Campaign.SourceFiles
import BackendFuzz.Proofs.Session.Directories

/-!
# Sources that are written once

What a call to save a source does follows from the files on the way to its path and from
whether something is there. It only adds to the files, so calls at places apart from each
other answer alike and leave the same files in either order.
-/

namespace BackendFuzz

open Session

structure Save where
  path : Path
  source : String
  straight : path.Straight
  scalar : Text.Scalar source

namespace Save

def call (c : Save) : Session Bool := saveVariant c.path (.text c.source)

/-! ## One call -/

def Reaches (c : Save) (s : FileStore) : Prop :=
  c.path.parent.flaw? = none ∧ s.barrier c.path.parent = none

def TooLong (c : Save) : Prop :=
  FileStore.maxPath < Path.byteSize c.path.text ∨ FileStore.maxName < Path.byteSize c.path.name

def Named (c : Save) : Prop := c.path.flaw? = none ∧ ¬ c.TooLong

instance (c : Save) (s : FileStore) : Decidable (c.Reaches s) := inferInstanceAs (Decidable (_ ∧ _))

instance (c : Save) : Decidable c.TooLong := inferInstanceAs (Decidable (_ ∨ _))

instance (c : Save) : Decidable c.Named := inferInstanceAs (Decidable (_ ∧ _))

def bytes (c : Save) : ByteArray := ((Text.encode c.source).toOption).getD .empty

theorem encode_source (c : Save) : Text.encode c.source = .ok c.bytes := by
  obtain ⟨content, he⟩ := Text.encode_of_scalar c.scalar
  rw [bytes, he]
  rfl

inductive Outcome (c : Save) (s : FileStore) : Except Fault Bool → FileStore → Prop
  | flawed {flaw : Path.Flaw} (h : c.path.parent.flaw? = some flaw) :
    Outcome c s (.error (.path flaw)) s
  | barred {cause : FileCause} {text : String} {s' : FileStore} (h : c.path.parent.flaw? = none)
    (hb : s.barrier c.path.parent = some cause) (hf : s.Furnished (s.footing c.path.parent) s') :
    Outcome c s (.error (.file ⟨cause, text⟩)) s'
  | misnamed {flaw : Path.Flaw} {s' : FileStore} (hr : c.Reaches s)
    (h : c.path.flaw? = some flaw) (hf : s.Furnished c.path.parent.place s') :
    Outcome c s (.error (.path flaw)) s'
  | tooLong {s' : FileStore} (hr : c.Reaches s) (h : c.path.flaw? = none) (hlong : c.TooLong)
    (hf : s.Furnished c.path.parent.place s') :
    Outcome c s (.error (.file ⟨.tooLong, c.path.text⟩)) s'
  | taken {s' : FileStore} {node : FileNode} (hr : c.Reaches s) (hn : c.Named)
    (hp : s.at? c.path.place = some node) (hf : s.Furnished c.path.parent.place s') :
    Outcome c s (.ok false) s'
  | written {s' : FileStore} (hr : c.Reaches s) (hn : c.Named)
    (hp : s.at? c.path.place = none) (hf : s.Furnished c.path.parent.place s') :
    Outcome c s (.ok true) (s'.put c.path.place (.file c.bytes))

section
variable {c : Save} {s s' : FileStore} {r r' : Except Fault Bool} {o : Outside} {b b' : Bench}

theorem run_storeSource_flawed {path : Path} {flaw : Path.Flaw} (h : path.flaw? = some flaw)
    (source : Json) : (storeSource path source).run o b = (.error (.path flaw), b) := by
  have hchecked : (checkPath path).run o b = (.error (.path flaw), b) := by
    rw [checkPath, h]
    rfl
  exact run_bind_error hchecked _

theorem run_storeSource_tooLong {path : Path} {text : String} (h : path.flaw? = none)
    (hl : b.files.locate path = .error ⟨.tooLong, text⟩) (source : Json) :
    (storeSource path source).run o b = (.error (.file ⟨.tooLong, text⟩), b) := by
  have hchecked : (checkPath path).run o b = (.ok (), b) := by
    rw [checkPath, h]
    rfl
  have hc : b.files.createFile path = .error ⟨.tooLong, text⟩ := by
    rw [FileStore.createFile, hl, error_bind]
  unfold storeSource
  rw [run_bind_ok hchecked, run_bind_ok (run_get o b), hc]
  rfl

theorem within_parent (path : Path) : path.place.within path.parent.place = true :=
  Place.within_iff.mpr ⟨rfl, rfl, List.dropLast_prefix _⟩

theorem within_parent_of_ne {path : Path} {q : Place} (hq : path.place.within q = true)
    (hne : q ≠ path.place) : path.parent.place.within q = true := by
  obtain ⟨root, parts⟩ := path
  have hw := Place.within_iff.mp hq
  rcases List.eq_nil_or_concat parts with rfl | ⟨above, name, rfl⟩
  · exact hq
  · rw [List.concat_eq_append] at hw hne ⊢
    have hparent : Path.parent ⟨root, above ++ [name]⟩ = ⟨root, above⟩ :=
      Path.parent_child ⟨root, above⟩ name
    rw [hparent]
    rcases List.prefix_concat_iff.mp hw.2.2 with hnames | hnames
    · refine absurd ?_ hne
      obtain ⟨absolute, up, names⟩ := q
      obtain ⟨rfl, rfl, -⟩ := hw
      exact congrArg _ hnames
    · exact Place.within_iff.mpr ⟨hw.1, hw.2.1, hnames⟩

/-- Directories for a path change nothing at the path itself. -/
theorem at?_place (h : s.Furnished c.path.parent.place s') :
    s'.at? c.path.place = s.at? c.path.place := by
  rw [h.at?_eq]
  split
  · rename_i hw
    have hroot : c.path.parts = [] := by
      have hprefix : c.path.parts.length ≤ c.path.parts.dropLast.length :=
        (Place.within_iff.mp hw).2.2.length_le
      rw [List.length_dropLast] at hprefix
      exact List.length_eq_zero_iff.mp (by omega)
    simp [FileStore.at?, Path.place, hroot]
  · rfl

theorem outcome_storeSource (hr : c.Reaches s) (hf : s.Furnished c.path.parent.place b.files) :
    Outcome c s ((storeSource c.path (.text c.source)).run o b).1
      ((storeSource c.path (.text c.source)).run o b).2.files := by
  cases hflaw : c.path.flaw? with
  | some flaw =>
    rw [run_storeSource_flawed hflaw]
    exact .misnamed hr hflaw hf
  | none =>
    have hl := hf.locate c.straight hr.2
    by_cases hlong : c.TooLong
    · rw [run_storeSource_tooLong hflaw (hl.trans (if_pos hlong))]
      exact .tooLong hr hflaw hlong hf
    · replace hl := hl.trans (if_neg hlong)
      have hstored := run_storeSource c.path (.text c.source) o b
      obtain ⟨saved, b', hrun⟩ := storeSource_ok o hflaw hl c.encode_source
      rw [hrun] at hstored ⊢
      dsimp only at hstored ⊢
      generalize b'.files = files at hstored ⊢
      have hplace : ∀ p, b.files.locate c.path = .ok p → p = c.path.place := fun p hp =>
        Except.ok.inj (hp.symm.trans hl)
      cases hstored with
      | taken hl' hp =>
        rw [hplace _ hl', at?_place hf] at hp
        exact .taken hr ⟨hflaw, hlong⟩ hp hf
      | kept hl' hp hs he' =>
        cases hs
        cases he'.symm.trans c.encode_source
        rw [hplace _ hl'] at hp ⊢
        exact .written hr ⟨hflaw, hlong⟩ (at?_place hf ▸ hp) hf

theorem outcome_call (c : Save) (o : Outside) (hs : b.files.Tree) :
    Outcome c b.files (c.call.run o b).1 (c.call.run o b).2.files := by
  rw [call, saveVariant_eq]
  cases hflaw : c.path.parent.flaw? with
  | some flaw =>
    rw [run_bind_error (run_furnish_flawed o b hflaw)]
    exact .flawed hflaw
  | none =>
    have hmade := FileStore.furnishing_furnish hs c.straight.parent
    rcases hc : b.files.furnish c.path.parent with ⟨files, _ | fault⟩
    · rw [hc] at hmade
      have hb : b.files.barrier c.path.parent = none := hmade.refused.symm
      have hf := FileStore.footing_of_clear hb ▸ hmade.furnished
      rw [run_bind_ok (run_furnish o b hflaw hc)]
      exact outcome_storeSource (b := { b with files }) ⟨hflaw, hb⟩ hf
    · rw [hc] at hmade
      rw [run_bind_error (run_furnish_refused o b hflaw hc)]
      exact .barred hflaw hmade.refused.symm hmade.furnished

/-! ## What a call adds -/

/-- What a call makes at a place if nothing is there. -/
def adds (c : Save) (s : FileStore) (t : Place) : Option FileNode :=
  if c.path.parent.flaw?.isSome then none
  else if t = c.path.place ∧ c.Reaches s ∧ c.Named then some (.file c.bytes)
  else if (s.footing c.path.parent).within t then some .directory
  else none

theorem Reaches.footing (hr : c.Reaches s) : s.footing c.path.parent = c.path.parent.place :=
  FileStore.footing_of_clear hr.2

theorem adds_of_not_stored (hflaw : c.path.parent.flaw? = none) {t : Place}
    (h : ¬ (t = c.path.place ∧ c.Reaches s ∧ c.Named)) :
    c.adds s t = if (s.footing c.path.parent).within t then some .directory else none := by
  rw [adds, hflaw, Option.isSome_none, if_neg Bool.false_ne_true, if_neg h]

theorem or_of_furnished {p t : Place} (h : s.Furnished p s') :
    s'.at? t = (s.at? t).or (if p.within t then some .directory else none) := by
  have ht := h.at?_eq t
  split at ht
  · rename_i hw
    rw [if_pos hw]
    cases hold : s.at? t with
    | none => exact ht
    | some node => exact h.grows t node hold
  · rename_i hw
    rw [if_neg hw, Option.or_none, ht]

theorem Outcome.at?_eq (h : Outcome c s r s') (t : Place) :
    s'.at? t = (s.at? t).or (c.adds s t) := by
  cases h with
  | flawed h => rw [adds, h, Option.isSome_some, if_pos rfl, Option.or_none]
  | barred h hb hf =>
    have hn : ¬ (t = c.path.place ∧ c.Reaches s ∧ c.Named) := fun hn => by
      cases hb.symm.trans hn.2.1.2
    rw [adds_of_not_stored h hn, or_of_furnished hf]
  | misnamed hr h hf =>
    have hn : ¬ (t = c.path.place ∧ c.Reaches s ∧ c.Named) := fun hn => by
      cases h.symm.trans hn.2.2.1
    rw [adds_of_not_stored hr.1 hn, hr.footing, or_of_furnished hf]
  | tooLong hr h hlong hf =>
    rw [adds_of_not_stored hr.1 fun hn => hn.2.2.2 hlong, hr.footing, or_of_furnished hf]
  | taken hr hn hp hf =>
    by_cases ht : t = c.path.place
    · rw [or_of_furnished hf, ht, hp]
      rfl
    · rw [adds_of_not_stored hr.1 fun hn => ht hn.1, hr.footing, or_of_furnished hf]
  | written hr hn hp hf =>
    by_cases ht : t = c.path.place
    · rw [adds, hr.1, Option.isSome_none, if_neg Bool.false_ne_true, if_pos ⟨ht, hr, hn⟩, ht, hp,
        FileStore.at?_put_self _ (FileStore.names_ne_nil_of_absent hp)]
      rfl
    · rw [adds_of_not_stored hr.1 fun hn => ht hn.1, hr.footing, FileStore.at?_put_of_ne _ ht,
        or_of_furnished hf]

/-- Directories are left as far as they could be made, whatever a call answers. -/
theorem Outcome.footed (h : Outcome c s r s') (hflaw : c.path.parent.flaw? = none) :
    s'.at? (s.footing c.path.parent) = some .directory := by
  cases h with
  | flawed h => cases h.symm.trans hflaw
  | barred h hb hf => exact hf.there
  | misnamed hr h hf => exact hr.footing ▸ hf.there
  | tooLong hr h hlong hf => exact hr.footing ▸ hf.there
  | taken hr hn hp hf => exact hr.footing ▸ hf.there
  | written hr hn hp hf =>
    rw [hr.footing]
    exact FileStore.grows_put (at?_place hf ▸ hp) _ _ _ hf.there

theorem Outcome.grows (h : Outcome c s r s') : s.Grows s' := fun q node hq => by
  rw [h.at?_eq q, hq]
  rfl

theorem Outcome.tree (h : Outcome c s r s') (hs : s.Tree) : s'.Tree := by
  cases h with
  | flawed h => exact hs
  | barred h hb hf => exact hs.furnished hf
  | misnamed hr h hf => exact hs.furnished hf
  | tooLong hr h hlong hf => exact hs.furnished hf
  | taken hr hn hp hf => exact hs.furnished hf
  | written hr hn hp hf =>
    refine (hs.furnished hf).put ?_ (at?_place hf ▸ hp) _
    intro q hq hne
    rw [hf.at?_eq, if_pos (within_parent_of_ne hq hne)]

/-! ## Calls in another order -/

/-- Neither path leads to a place at or above that of the other. -/
def Apart (c d : Save) : Prop :=
  c.path.place.within d.path.place = false ∧ d.path.place.within c.path.place = false

theorem Apart.symm {d : Save} (h : Apart c d) : Apart d c := ⟨h.2, h.1⟩

/-- The same answer, but a fault of the file system may name another path on the way. -/
inductive Alike : Except Fault Bool → Except Fault Bool → Prop
  | same (r : Except Fault Bool) : Alike r r
  | refused (cause : FileCause) (text text' : String) :
    Alike (.error (.file ⟨cause, text⟩)) (.error (.file ⟨cause, text'⟩))

theorem Alike.symm (h : Alike r r') : Alike r' r := by
  cases h with
  | same => exact .same r
  | refused cause text text' => exact .refused cause text' text

theorem Alike.trans {r'' : Except Fault Bool} (h : Alike r r') (h' : Alike r' r'') :
    Alike r r'' := by
  cases h with
  | same => exact h'
  | refused cause text text' =>
    cases h' with
    | same => exact .refused cause text text'
    | refused _ _ text'' => exact .refused cause text text''

/-- The answer to a call, told from what is in its way and what is at its place. -/
def answer (c : Save) (barrier : Option FileCause) (there : Option FileNode) : Except Fault Bool :=
  match c.path.parent.flaw?, barrier, c.path.flaw? with
  | some flaw, _, _ => .error (.path flaw)
  | none, some cause, _ => .error (.file ⟨cause, c.path.parent.text⟩)
  | none, none, some flaw => .error (.path flaw)
  | none, none, none =>
    if c.TooLong then .error (.file ⟨.tooLong, c.path.text⟩) else .ok there.isNone

theorem Outcome.answer (h : Outcome c s r s') :
    Alike r (c.answer (s.barrier c.path.parent) (s.at? c.path.place)) := by
  unfold Save.answer
  cases h with
  | flawed h => rw [h]; exact .same _
  | barred h hb hf => rw [h, hb]; exact .refused _ _ _
  | misnamed hr h hf => rw [hr.1, hr.2, h]; exact .same _
  | tooLong hr h hlong hf => rw [hr.1, hr.2, h]; simp only [if_pos hlong]; exact .same _
  | taken hr hn hp hf =>
    rw [hr.1, hr.2, hn.1, hp]
    simp only [if_neg hn.2]
    exact .same _
  | written hr hn hp hf =>
    rw [hr.1, hr.2, hn.1, hp]
    simp only [if_neg hn.2]
    exact .same _

theorem Outcome.returns_iff (h : Outcome c s r s') :
    (∃ saved, r = .ok saved) ↔ c.Reaches s ∧ c.Named := by
  cases h with
  | flawed h => simp [Reaches, h]
  | barred h hb hf => simp [Reaches, hb]
  | misnamed hr h hf => simp [Named, h]
  | tooLong hr h hlong hf => simp [Named, hlong]
  | taken hr hn hp hf => simp [hr, hn]
  | written hr hn hp hf => simp [hr, hn]

theorem within_of_adds {t : Place} {node : FileNode} (h : c.adds s t = some node) :
    c.path.place.within t = true := by
  unfold adds at h
  split_ifs at h with hflaw ht hw
  · exact ht.1 ▸ FileStore.within_self t
  · exact Place.within_trans (within_parent c.path) (Place.within_trans (s.within_footing _) hw)

theorem place_of_adds {t : Place} {content : ByteArray}
    (h : c.adds s t = some (.file content)) : t = c.path.place := by
  unfold adds at h
  split_ifs at h with hflaw ht
  · exact ht.1
  · cases h

section
variable {d : Save} (hcd : Apart c d)
include hcd

theorem at?_apart (h : Outcome d s r s') : s'.at? c.path.place = s.at? c.path.place := by
  have hadds : d.adds s c.path.place = none := by
    rw [Option.eq_none_iff_forall_ne_some]
    intro node hn
    cases hcd.2.symm.trans (within_of_adds hn)
  rw [h.at?_eq, hadds, Option.or_none]

/-- What one call adds is not in the way of another one apart from it. -/
theorem fileAt_apart (h : Outcome d s r s') (t : Place)
    (ht : c.path.parent.place.within t = true) : s'.fileAt t = s.fileAt t := by
  have hfile : ∀ content, d.adds s t ≠ some (.file content) := by
    intro content hadds
    have hw := Place.within_trans (within_parent c.path) ht
    rw [place_of_adds hadds, hcd.1] at hw
    cases hw
  rw [FileStore.fileAt, FileStore.fileAt, h.at?_eq t]
  cases s.at? t with
  | some node => rfl
  | none =>
    rw [Option.none_or]
    split
    · rename_i content hadds
      exact absurd hadds (hfile content)
    · rfl

theorem barrier_apart (h : Outcome d s r s') :
    s'.barrier c.path.parent = s.barrier c.path.parent :=
  FileStore.barrier_congr (fileAt_apart hcd h)

theorem adds_apart (h : Outcome d s r s') (t : Place) : c.adds s' t = c.adds s t := by
  have hreaches : c.Reaches s' ↔ c.Reaches s := by rw [Reaches, Reaches, barrier_apart hcd h]
  have hfoot : s'.footing c.path.parent = s.footing c.path.parent :=
    FileStore.footing_congr (fileAt_apart hcd h)
  simp only [adds, hreaches, hfoot]

theorem adds_comm (t : Place) : (c.adds s t).or (d.adds s t) = (d.adds s t).or (c.adds s t) := by
  have hdirectory : ∀ {c d : Save}, Apart c d → ∀ {node node'}, c.adds s t = some node →
      d.adds s t = some node' → node = .directory := by
    intro c d hcd node node' hc hd
    cases node with
    | directory => rfl
    | file content =>
      have hw := within_of_adds hd
      rw [place_of_adds hc, hcd.2] at hw
      cases hw
  cases hc : c.adds s t with
  | none => rw [Option.none_or, Option.or_none]
  | some node =>
    cases hd : d.adds s t with
    | none => rfl
    | some node' =>
      rw [hdirectory hcd hc hd, hdirectory hcd.symm hd hc]

end

/-! ## Sequences of calls -/

def saveAll (o : Outside) (b : Bench) (calls : List Save) : Bench :=
  calls.foldl (fun b c => (c.call.run o b).2) b

theorem saveAll_keeps (o : Outside) (hb : b.files.Tree) (calls : List Save) :
    (saveAll o b calls).files.Tree ∧ b.files.Grows (saveAll o b calls).files := by
  induction calls generalizing b with
  | nil => exact ⟨hb, .refl b.files⟩
  | cons c calls ih =>
    have hc := outcome_call c o hb
    obtain ⟨htree, hgrows⟩ := ih (hc.tree hb)
    exact ⟨htree, hc.grows.trans hgrows⟩

section
variable (hb : b.files.Tree)
include hb

theorem reaches_iff (c : Save) : c.Reaches b.files ↔ c.path.parent.flaw? = none ∧
    ∃ files, b.files.ensureDirectories c.path.parent = .ok files := by
  have hmade := (FileStore.furnishing_furnish hb c.straight.parent).refused
  simp only [Reaches, FileStore.ensureDirectories_eq_ok_iff, ← hmade]
  rcases b.files.furnish c.path.parent with ⟨files, _ | fault⟩
  · simp
  · simp

theorem call_answers (c : Save) (o : Outside) {saved : Bool}
    (h : (c.call.run o b).1 = .ok saved) :
    (saved = true ↔ b.files.node? c.path = .ok none) ∧
    (saved = true → (c.call.run o b).2.files.read c.path = .ok c.bytes) ∧
    (saved = false → b.files.SameFiles (c.call.run o b).2.files) := by
  have hc := outcome_call c o hb
  obtain ⟨hr, hn⟩ := hc.returns_iff.mp ⟨saved, h⟩
  rw [FileStore.node?_of_barrier hb c.straight hr.2 hn.2]
  rw [h] at hc
  generalize (c.call.run o b).2.files = files at hc
  cases hc with
  | taken hr hn hp hf =>
    exact ⟨by simp [hp], by simp, fun _ => hf.sameFiles⟩
  | written hr hn hp hf =>
    have hl := (hf.locate c.straight hr.2).trans (if_neg hn.2)
    have hnone := at?_place hf ▸ hp
    refine ⟨by simp [hp], fun _ => ?_, by simp⟩
    exact FileStore.read_of_locate (FileStore.locate_put hnone hl)
      (FileStore.at?_put_self _ (FileStore.names_ne_nil_of_absent hnone))

theorem calls_commute (o : Outside) {c d : Save} (hcd : Apart c d) :
    Alike (c.call.run o b).1 (c.call.run o (d.call.run o b).2).1 ∧
    ∀ t, (saveAll o b [c, d]).files.at? t = (saveAll o b [d, c]).files.at? t := by
  have hc := outcome_call c o hb
  have hd := outcome_call d o hb
  have hdc := outcome_call c o (hd.tree hb)
  have hcd' := outcome_call d o (hc.tree hb)
  constructor
  · refine hc.answer.trans (Alike.symm ?_)
    rw [← barrier_apart hcd hd, ← at?_apart hcd hd]
    exact hdc.answer
  · intro t
    show (d.call.run o (c.call.run o b).2).2.files.at? t =
      (c.call.run o (d.call.run o b).2).2.files.at? t
    rw [hcd'.at?_eq, hdc.at?_eq, hc.at?_eq, hd.at?_eq, adds_apart hcd hd, adds_apart hcd.symm hc,
      Option.or_assoc, Option.or_assoc, adds_comm hcd]

end

end

end Save

open Save

/-- Sources are written once. From any files in directories, after any calls: a file keeps its
content through all calls to come; a call returns exactly if its parent directory can be made and
the file system can be asked for its path; it then answers yes exactly if nothing was at the path,
with the source in the file there, and otherwise leaves every file as it was; returning or not, it
leaves the directories on the way as far as they can be made; and two calls apart from each other
answer alike and leave the same files and directories in either order. -/
theorem sources_are_written_once (o : Outside) (b : Bench) (hb : b.files.Tree)
    (before : List Save) :
    (∀ after p content, (saveAll o b before).files.at? p = some (.file content) →
      (saveAll o (saveAll o b before) after).files.at? p = some (.file content)) ∧
    (∀ c : Save,
      ((∃ saved, (c.call.run o (saveAll o b before)).1 = .ok saved) ↔
        c.path.parent.flaw? = none ∧
        (∃ files, (saveAll o b before).files.ensureDirectories c.path.parent = .ok files) ∧
        c.Named) ∧
      (c.path.parent.flaw? = none → (c.call.run o (saveAll o b before)).2.files.at?
        ((saveAll o b before).files.footing c.path.parent) = some .directory) ∧
      ∀ saved, (c.call.run o (saveAll o b before)).1 = .ok saved →
        (saved = true ↔ (saveAll o b before).files.node? c.path = .ok none) ∧
        (saved = true → Text.encode c.source = .ok c.bytes ∧
          (c.call.run o (saveAll o b before)).2.files.read c.path = .ok c.bytes) ∧
        (saved = false → (saveAll o b before).files.SameFiles
          (c.call.run o (saveAll o b before)).2.files)) ∧
    ∀ c d : Save, Apart c d →
      Alike (c.call.run o (saveAll o b before)).1
        (c.call.run o (d.call.run o (saveAll o b before)).2).1 ∧
      Alike (d.call.run o (c.call.run o (saveAll o b before)).2).1
        (d.call.run o (saveAll o b before)).1 ∧
      ∀ t, (saveAll o (saveAll o b before) [c, d]).files.at? t =
        (saveAll o (saveAll o b before) [d, c]).files.at? t := by
  have hbefore := (saveAll_keeps o hb before).1
  generalize saveAll o b before = b₁ at hbefore ⊢
  refine ⟨fun after p content hp => (saveAll_keeps o hbefore after).2 p _ hp,
    fun c => ⟨?_, (outcome_call c o hbefore).footed, ?_⟩, ?_⟩
  · rw [(outcome_call c o hbefore).returns_iff, reaches_iff hbefore, and_assoc]
  · intro saved h
    obtain ⟨hiff, hwritten, htaken⟩ := call_answers hbefore c o h
    exact ⟨hiff, fun hs => ⟨c.encode_source, hwritten hs⟩, htaken⟩
  · intro c d hcd
    obtain ⟨halike, hfiles⟩ := calls_commute hbefore o hcd
    exact ⟨halike, (calls_commute hbefore o hcd.symm).1.symm, hfiles⟩

namespace Sample

def kept : Save where
  path := ⟨"", ["out", "v.sol"]⟩
  source := "contract A \x7b\x7d"
  straight := by decide
  scalar := Text.scalar_of_allPlain (by decide)

def late : Save := { kept with
  source := "contract B \x7b\x7d"
  scalar := Text.scalar_of_allPlain (by decide) }

def beside : Save := { kept with
  path := ⟨"", ["out", "old", "v.sol"]⟩
  straight := by decide }

def longName : String := String.ofList (List.replicate 64 '😀')

/-- The second directory on the way has too long a name. -/
def cutOff : Save := { kept with
  path := ⟨"", ["out", longName, "v.sol"]⟩
  straight := by decide +kernel }

theorem toList_longName : longName.toList = List.replicate 64 '😀' := String.toList_ofList

theorem toList_below_out (name : String) :
    (Path.text ⟨"", ["out", name]⟩).toList = "out/".toList ++ name.toList := by
  simp [Path.text, String.intercalate_cons_cons]

theorem parent_cutOff : cutOff.path.parent = ⟨"", ["out", longName]⟩ := rfl

theorem flaw?_cutOff : cutOff.path.parent.flaw? = none := by
  rw [parent_cutOff, Path.flaw?, toList_below_out, toList_longName]
  decide +kernel

theorem footing_cutOff : FileStore.empty.footing cutOff.path.parent = ⟨false, 0, ["out"]⟩ := by
  have hsize : ¬ FileStore.maxPath < Path.byteSize cutOff.path.parent.text := by
    rw [parent_cutOff, Path.byteSize, toList_below_out, toList_longName]
    decide +kernel
  have hname : FileStore.maxName < Path.byteSize longName := by
    rw [Path.byteSize, toList_longName]
    decide +kernel
  have hout : ¬ FileStore.maxName < Path.byteSize "out" := by decide
  rw [FileStore.footing, if_neg hsize, parent_cutOff]
  simp [Path.place, FileStore.foot, FileStore.fileAt, FileStore.at?, FileStore.empty, Place.down,
    hout, hname]

theorem empty_tree : FileStore.empty.Tree := by
  intro p node hp
  by_cases hn : p.names = []
  · exact FileStore.reached_of_names_nil hn
  · simp [FileStore.at?, FileStore.empty, hn] at hp

end Sample

theorem sources_are_written_once_at_one_path : ∃ o : Outside,
    (Sample.kept.call.run o {}).1 = .ok true ∧
    (Sample.kept.call.run o {}).2.files.read Sample.kept.path = .ok Sample.kept.bytes ∧
    (Sample.late.call.run o (saveAll o {} [Sample.kept])).1 = .ok false ∧
    (saveAll o {} [Sample.kept]).files.SameFiles
      (Sample.late.call.run o (saveAll o {} [Sample.kept])).2.files ∧
    (∀ t, (saveAll o (saveAll o {} [Sample.kept]) [Sample.late, Sample.beside]).files.at? t =
      (saveAll o (saveAll o {} [Sample.kept]) [Sample.beside, Sample.late]).files.at? t) ∧
    (Sample.cutOff.call.run o {}).2.files.at? ⟨false, 0, ["out"]⟩ = some .directory ∧
    ∀ t, (saveAll o {} [Sample.cutOff, Sample.kept]).files.at? t =
      (saveAll o {} [Sample.kept, Sample.cutOff]).files.at? t := by
  let o := Outside.alone ⟨2024, 1, 1, 0, 0, 0, 0⟩
  obtain ⟨-, hfirst, hapart⟩ := sources_are_written_once o {} Sample.empty_tree []
  obtain ⟨-, hsecond, hcommute⟩ := sources_are_written_once o {} Sample.empty_tree [Sample.kept]
  have hkept : (Sample.kept.call.run o {}).1 = .ok true := by rfl
  have hlate : (Sample.late.call.run o (saveAll o {} [Sample.kept])).1 = .ok false := by rfl
  have hcut := (hfirst Sample.cutOff).2.1 Sample.flaw?_cutOff
  rw [show saveAll o {} [] = {} from rfl, show ({} : Bench).files = FileStore.empty from rfl,
    Sample.footing_cutOff] at hcut
  exact ⟨o, hkept, (((hfirst Sample.kept).2.2 true hkept).2.1 rfl).2, hlate,
    ((hsecond Sample.late).2.2 false hlate).2.2 rfl,
    (hcommute Sample.late Sample.beside ⟨by decide, by decide⟩).2.2, hcut,
    (hapart Sample.cutOff Sample.kept ⟨by decide +kernel, by decide +kernel⟩).2.2⟩

end BackendFuzz
