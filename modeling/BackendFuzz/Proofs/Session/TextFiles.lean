import BackendFuzz.Proofs.Session.Run

/-!
# Text files

A text file is read if its path has no flaw, something readable is there, and the
bytes are UTF-8; its text then has line feeds for line ends of all kinds.
-/

namespace BackendFuzz

inductive FileStore.Reads (files : FileStore) (path : Path) : Except Fault String → Prop
  | flawed {flaw : Path.Flaw} (hflaw : path.flaw? = some flaw) : Reads files path (.error (.path flaw))
  | refused {fault : FileFault} (hflaw : path.flaw? = none) (hread : files.read path = .error fault) :
    Reads files path (.error (.file fault))
  | undecodable {content : ByteArray} {fault : Text.Utf8Fault} (hflaw : path.flaw? = none)
    (hread : files.read path = .ok content) (hdecode : Text.decode content = .error fault) :
    Reads files path (.error (.encoding fault))
  | text {content : ByteArray} {s : String} (hflaw : path.flaw? = none)
    (hread : files.read path = .ok content) (hdecode : Text.decode content = .ok s) :
    Reads files path (.ok (String.ofList (Text.unifyLines s.toList)))

namespace Session

theorem run_readTextFile_of_reads {files : FileStore} {path : Path} {r : Except Fault String}
    (h : files.Reads path r) (o : Outside) {b : Bench} (hfiles : b.files = files) :
    (readTextFile path).run o b = (r, b) := by
  subst hfiles
  cases h with
  | flawed hflaw => simp [readTextFile, checkPath, run_bind, hflaw]
  | refused hflaw hread => simp [readTextFile, checkPath, run_bind, hflaw, hread]
  | undecodable hflaw hread hdecode =>
    simp [readTextFile, checkPath, run_bind, hflaw, hread, hdecode]
  | text hflaw hread hdecode => simp [readTextFile, checkPath, run_bind, hflaw, hread, hdecode]

theorem reads_readTextFile (path : Path) (o : Outside) (b : Bench) :
    b.files.Reads path ((readTextFile path).run o b).1 := by
  have of_reads : ∀ {r}, b.files.Reads path r → b.files.Reads path ((readTextFile path).run o b).1 := by
    intro r h
    rw [run_readTextFile_of_reads h o rfl]
    exact h
  cases hflaw : path.flaw? with
  | some flaw => exact of_reads (.flawed hflaw)
  | none =>
    cases hread : b.files.read path with
    | error fault => exact of_reads (.refused hflaw hread)
    | ok content =>
      cases hdecode : Text.decode content with
      | error fault => exact of_reads (.undecodable hflaw hread hdecode)
      | ok s => exact of_reads (.text hflaw hread hdecode)

theorem run_readTextFile (path : Path) (o : Outside) (b : Bench) :
    ∃ r, b.files.Reads path r ∧ (readTextFile path).run o b = (r, b) :=
  ⟨_, reads_readTextFile path o b, run_readTextFile_of_reads (reads_readTextFile path o b) o rfl⟩

end Session

end BackendFuzz
