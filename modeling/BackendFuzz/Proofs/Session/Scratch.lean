import BackendFuzz.Compiler.Eof
import BackendFuzz.Proofs.Session.Files
import BackendFuzz.Proofs.Session.Run

/-!
# Scratch directories

A program that gets a directory where nothing was leaves the store as it found
it, whatever it put into the directory.
-/

namespace BackendFuzz

namespace FileStore

section
variable {p q : Place} {node : FileNode}

/-! ## Directories of one's own -/

def Unused (store : FileStore) (p : Place) : Prop := ∀ n ∈ store.nodes, n.1.within p = false

def Extended (p : Place) (store store' : FileStore) : Prop :=
  ∃ more, store'.nodes = store.nodes ++ more ∧ ∀ n ∈ more, n.1.within p = true

theorem within_self (p : Place) : p.within p = true := by
  simp [Place.within, List.isPrefixOf_iff_prefix]

theorem within_down (p : Place) (name : String) : (p.down name).within p = true := by
  simp [Place.within, Place.down, List.isPrefixOf_iff_prefix]

variable {store store' : FileStore}

theorem Unused.put (hu : store.Unused p) (hq : q.within p = false) : (store.put q node).Unused p := by
  intro n hn
  rcases mem_insertNode hn with rfl | hn
  · exact hq
  · exact hu n hn

theorem Extended.refl (p : Place) (store : FileStore) : Extended p store store :=
  ⟨[], by simp, by simp⟩

theorem Extended.put (hu : store.Unused p) (h : Extended p store store')
    (hq : q.within p = true) : Extended p store (store'.put q node) := by
  obtain ⟨more, hm, hw⟩ := h
  have hne : ∀ n ∈ store.nodes, n.1 ≠ q := by
    intro n hn e
    rw [← e, hu n hn] at hq
    cases hq
  refine ⟨insertNode q node more, by simp only [FileStore.put, hm, insertNode_append hne], ?_⟩
  intro n hn
  rcases mem_insertNode hn with rfl | hn
  · exact hq
  · exact hw n hn

theorem at?_of_unused (hu : store.Unused p) (hp : p.names ≠ []) (hq : q.within p = true) :
    store.at? q = none := by
  have hne : q.names ≠ [] := by
    intro e
    simp [Place.within, e, List.isPrefixOf_iff_prefix, hp] at hq
  simp only [at?, List.isEmpty_iff, hne, ite_false, List.lookup_eq_none_iff]
  intro n hn
  simp only [bne_iff_ne, ne_eq]
  rintro rfl
  rw [hu n hn] at hq
  cases hq

/-- What was put at a place where nothing was goes with the tree there. -/
theorem Extended.removeTree {path : Path} (hu : store.Unused p) (h : Extended p store store')
    (hl : store'.locate path = .ok p) : store'.removeTree path = store := by
  obtain ⟨more, hm, hw⟩ := h
  have hold : store.nodes.filter (fun n => !n.1.within p) = store.nodes :=
    List.filter_eq_self.mpr fun n hn => by simp [hu n hn]
  have hnew : more.filter (fun n => !n.1.within p) = [] :=
    List.filter_eq_nil_iff.mpr fun n hn => by simp [hw n hn]
  simp only [FileStore.removeTree, hl, hm, List.filter_append, hold, hnew, List.append_nil]

end

end FileStore

/-! ## Programs with a directory of their own -/

section
variable {α : Type} {o : Outside} {b : Bench} {directory : Path} {p : Place}

theorem run_withScratch (hf : directory.flaw? = none) (hl : b.files.locate directory = .ok p)
    (hn : b.files.at? p = none) (body : Session α) : (withScratch directory body).run o b =
      let ended := body.run o { b with files := b.files.put p .directory }
      (ended.1, { ended.2 with files := ended.2.files.removeTree directory }) := by
  have hm : b.files.makeDirectory directory = .ok (b.files.put p .directory) := by
    simp [FileStore.makeDirectory, hl, hn, bind, Except.bind, pure, Except.pure]
  unfold withScratch
  rw [Session.run_bind_ok (Session.run_changeFiles o b hf hm)]
  exact Session.run_ensuring o _ body _

end

end BackendFuzz
