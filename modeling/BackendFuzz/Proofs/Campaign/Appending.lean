import BackendFuzz.Proofs.Campaign.ResultsLog

/-!
# Uses of a results file

A results file may be opened, written to and closed in any order and any number of
times. What has been written to it while it was open stands behind what was in
it before, after each call, and the count of its records is kept with it.
-/

namespace BackendFuzz

open Session

namespace ResultsFile

/-! ## Calls -/

inductive Call where
  | opening
  | writing (records : List DivergenceRecord)
  | closing

def Call.made (r : ResultsFile) : Call → Session ResultsFile
  | opening => r.opened
  | writing records => r.write records
  | closing => pure r.closed

def Call.records : Call → List DivergenceRecord
  | writing records => records
  | _ => []

/-- A results file on a bench, with the records of the writes that it accepted. -/
structure Use where
  file : ResultsFile
  bench : Bench
  accepted : List DivergenceRecord := []

namespace Use

def start (path : Path) (b : Bench) : Use := ⟨⟨path, none, 0⟩, b, []⟩

/-- A call that fails leaves the results file as it was. -/
def call (o : Outside) (u : Use) (c : Call) : Use :=
  match (c.made u.file).run o u.bench with
  | (.ok file, bench) => ⟨file, bench, u.accepted ++ c.records⟩
  | (.error _, bench) => { u with bench }

def calls (o : Outside) (u : Use) (cs : List Call) : Use := cs.foldl (call o) u

section
variable {o : Outside} {u : Use} {c : Call} {bench : Bench}

theorem call_ok {file : ResultsFile} (h : (c.made u.file).run o u.bench = (.ok file, bench)) :
    u.call o c = ⟨file, bench, u.accepted ++ c.records⟩ := by
  rw [call, h]

theorem call_error {fault : Fault} (h : (c.made u.file).run o u.bench = (.error fault, bench)) :
    u.call o c = { u with bench } := by
  rw [call, h]

theorem call_closing : u.call o .closing = { u with file := u.file.closed } := by
  rw [call_ok rfl]
  exact congrArg (Use.mk _ _) (List.append_nil _)

end

/-! ## States -/

structure Fresh (b : Bench) (u : Use) : Prop where
  closed : u.file.place = none
  accepted : u.accepted = []
  files : b.files.SameFiles u.bench.files

structure There (b : Bench) (u : Use) (p : Place) : Prop where
  path : u.file.path.flaw? = none
  located : u.bench.files.locate u.file.path = .ok p
  parent : u.file.path.parent.flaw? = none
  directory : ∃ d, u.bench.files.locate u.file.path.parent = .ok d ∧
    u.bench.files.at? d = some .directory
  holds : u.bench.files.at? p =
    some (.file (b.files.contentAt p ++ (Campaign.linesOf u.accepted).toUTF8))
  opened : ∀ q, u.file.place = some q → q = p

structure Sound (path : Path) (b : Bench) (u : Use) : Prop where
  path : u.file.path = path
  written : u.file.written = u.accepted.length
  state : Fresh b u ∨ ∃ p, There b u p

end Use

/-! ## Opening -/

section
variable {r r' : ResultsFile} {o : Outside} {b b' : Bench}

theorem flaw?_of_changed {path : Path} {change : FileStore → Path → Except FileFault FileStore}
    (h : (changeFiles path change).run o b = (.ok (), b')) : path.flaw? = none := by
  unfold changeFiles checkPath at h
  cases hp : path.flaw? with
  | some flaw => simp only [hp, run_bind, run_throw] at h; cases h
  | none => rfl

theorem flaw?_of_furnished {path : Path} (h : (furnish path).run o b = (.ok (), b')) :
    path.flaw? = none := by
  cases hp : path.flaw? with
  | some flaw => rw [run_furnish_flawed o b hp] at h; cases h
  | none => rfl

theorem opened_inv (h : r.opened.run o b = (.ok r', b')) :
    r.path.flaw? = none ∧ r.path.parent.flaw? = none ∧ r' = { r with place := r'.place } := by
  obtain ⟨_, b₁, hdirectory, h⟩ := run_bind_ok_inv h
  obtain ⟨_, b₂, htouch, h⟩ := run_bind_ok_inv h
  cases h
  exact ⟨flaw?_of_changed htouch, flaw?_of_furnished hdirectory, rfl⟩

/-- A file that is there, in a directory that is there, is opened as it is. -/
theorem run_opened_there {p d : Place} {content : ByteArray} (hpath : r.path.flaw? = none)
    (hlocate : b.files.locate r.path = .ok p) (hcontent : b.files.at? p = some (.file content))
    (hparent : r.path.parent.flaw? = none) (hd : b.files.locate r.path.parent = .ok d)
    (hthere : b.files.at? d = some .directory) : ∃ events,
    r.opened.run o b = (.ok { r with place := some p }, { b with events }) := by
  have htouch : b.files.touchFile r.path = .ok b.files := by
    rw [FileStore.touchFile, hlocate, ok_bind, hcontent]
    rfl
  have hplace : (b.files.locate r.path).toOption = some p := by rw [hlocate]; rfl
  unfold ResultsFile.opened
  rw [run_bind_ok (run_furnish o b hparent (FileStore.furnish_of_there hd hthere)),
    run_bind_ok (run_changeFiles o b hpath htouch), ← hplace]
  exact ⟨_, rfl⟩

end

/-! ## Writing -/

section
variable {r : ResultsFile} {o : Outside} {b : Bench} {p : Place} {content : ByteArray}

theorem run_write_closed (h : r.place = none) (records : List DivergenceRecord) :
    (r.write records).run o b = (.error .resultsClosed, b) := by
  unfold ResultsFile.write
  rw [h]
  rfl

theorem write_inv {r' : ResultsFile} {b' : Bench} {records : List DivergenceRecord}
    (h : (r.write records).run o b = (.ok r', b')) :
    r' = { r with written := r.written + records.length } := by
  unfold ResultsFile.write at h
  split at h
  · cases h
  · split at h
    · rename_i hempty
      cases h
      simp [List.isEmpty_iff.mp hempty]
    · obtain ⟨lines, b₁, -, h⟩ := run_bind_ok_inv h
      obtain ⟨_, b₂, -, h⟩ := run_bind_ok_inv h
      cases h
      rfl

/-- What is written to an open file is behind its content at once. -/
theorem run_write_open (h : r.place = some p) (hp : b.files.at? p = some (.file content))
    (records : List DivergenceRecord) : ∃ files,
    (r.write records).run o b =
      (.ok { r with written := r.written + records.length }, { b with files }) ∧
    files.at? p = some (.file (content ++ (Campaign.linesOf records).toUTF8)) ∧
    b.files.Changes (· = p) files := by
  obtain ⟨r', files, hrun, -, hcontent, hfiles⟩ := run_write (o := o) h hp (encode_lines records)
  refine ⟨files, write_inv hrun ▸ hrun, hcontent, ?_⟩
  rcases hfiles with rfl | rfl
  · exact refl_of (FileStore.Changes (· = p)) b.files
  · exact FileStore.changes_appendAt (W := (· = p)) rfl _

end

/-! ## Calls one after another -/

namespace Use

section
variable {o : Outside} {path : Path} {b : Bench} {u : Use} {p : Place}

theorem sound_start (path : Path) (b : Bench) : Sound path b (start path b) :=
  ⟨rfl, rfl, .inl ⟨rfl, rfl, refl_of FileStore.SameFiles b.files⟩⟩

theorem Sound.closing (h : Sound path b u) : Sound path b (u.call o .closing) := by
  rw [call_closing]
  refine ⟨h.path, h.written, ?_⟩
  rcases h.state with hfresh | ⟨p, hthere⟩
  · exact .inl ⟨rfl, hfresh.accepted, hfresh.files⟩
  · exact .inr ⟨p, { hthere with opened := by simp [closed] }⟩

theorem call_writing_closed (h : u.file.place = none) (records : List DivergenceRecord) :
    u.call o (.writing records) = u := by
  rw [call_error (c := .writing records) (run_write_closed h records)]

/-- A write to an open file is accepted, and its lines come behind those before. -/
theorem There.writing (h : There b u p) (hplace : u.file.place = some p)
    (records : List DivergenceRecord) : ∃ files,
    u.call o (.writing records) = ⟨{ u.file with written := u.file.written + records.length },
      { u.bench with files }, u.accepted ++ records⟩ ∧
    There b (u.call o (.writing records)) p := by
  obtain ⟨files, hrun, hcontent, hchanges⟩ := run_write_open (o := o) hplace h.holds records
  obtain ⟨d, hd, hdirectory⟩ := h.directory
  have hcall := call_ok (c := .writing records) hrun
  refine ⟨files, hcall, ?_⟩
  rw [hcall]
  exact
    { path := h.path
      located := hchanges.locate h.located
      parent := h.parent
      directory := ⟨d, hchanges.locate hd,
        hchanges.directory (FileStore.locate_reached hd) hdirectory⟩
      holds := by
        rw [hcontent, ByteArray.append_assoc, Call.records, Campaign.linesOf_append, String.toUTF8,
          String.toUTF8, String.toUTF8, String.toByteArray_append]
      opened := h.opened }

theorem Sound.writing (h : Sound path b u) (records : List DivergenceRecord) :
    Sound path b (u.call o (.writing records)) := by
  cases hplace : u.file.place with
  | none => rwa [call_writing_closed hplace]
  | some q =>
    rcases h.state with hfresh | ⟨p, hthere⟩
    · cases hfresh.closed.symm.trans hplace
    · obtain rfl := hthere.opened q hplace
      obtain ⟨files, hcall, hthere'⟩ := hthere.writing (o := o) hplace records
      refine ⟨?_, ?_, .inr ⟨q, hthere'⟩⟩
      · rw [hcall]
        exact h.path
      · rw [hcall, List.length_append, h.written]

/-- A file that is there can be opened, and is opened with what it holds. -/
theorem There.opening (h : There b u p) : ∃ events, u.call o .opening =
    { u with file := { u.file with place := some p }, bench := { u.bench with events } } := by
  obtain ⟨d, hd, hdirectory⟩ := h.directory
  obtain ⟨events, hrun⟩ := run_opened_there (o := o) h.path h.located h.holds h.parent hd hdirectory
  exact ⟨events, (call_ok (c := .opening) hrun).trans (congrArg (Use.mk _ _) (List.append_nil _))⟩

theorem Sound.opening (h : Sound path b u) : Sound path b (u.call o .opening) := by
  -- Opening can fail only as long as the file has not been opened; no file is changed then.
  rcases h.state with hfresh | ⟨p, hthere⟩
  · rcases hrun : u.file.opened.run o u.bench with ⟨fault | r', b'⟩
    · rw [call_error (c := .opening) hrun]
      exact ⟨h.path, h.written, .inl ⟨hfresh.closed, hfresh.accepted,
        trans_of FileStore.SameFiles hfresh.files (Campaign.sameFiles_of_unopened hrun)⟩⟩
    · obtain ⟨hpath, hparent, hr'⟩ := opened_inv hrun
      obtain ⟨p, d, files, events, rfl, hplace, -, hlocate, hcontent, hd, hdirectory⟩ :=
        run_opened hrun
      rw [call_ok (c := .opening) hrun, hfresh.accepted]
      rw [hplace] at hr'
      subst hr'
      refine ⟨h.path, ?_, .inr ⟨p, ?_⟩⟩
      · rw [h.written, hfresh.accepted]
        rfl
      · exact
          { path := hpath
            located := hlocate
            parent := hparent
            directory := ⟨d, hd, hdirectory⟩
            holds := by
              rw [hcontent, hfresh.files.contentAt]
              exact congrArg (some ∘ FileNode.file) ByteArray.append_empty.symm
            opened := by simp }
  · obtain ⟨events, hcall⟩ := hthere.opening (o := o)
    rw [hcall]
    exact ⟨h.path, h.written, .inr ⟨p, { hthere with opened := by simp }⟩⟩

theorem Sound.call (h : Sound path b u) (c : Call) : Sound path b (u.call o c) := by
  cases c with
  | opening => exact h.opening
  | writing records => exact h.writing records
  | closing => exact h.closing

theorem Sound.calls (h : Sound path b u) (cs : List Call) : Sound path b (u.calls o cs) := by
  induction cs generalizing u with
  | nil => exact h
  | cons c cs ih => exact ih (h.call c)

/-- Where its path leads, the file holds what it held and the lines of the accepted records. -/
theorem Sound.contentAt (h : Sound path b u) (hp : u.bench.files.locate path = .ok p) :
    u.bench.files.contentAt p = b.files.contentAt p ++ (Campaign.linesOf u.accepted).toUTF8 := by
  rcases h.state with hfresh | ⟨q, hthere⟩
  · rw [hfresh.files.contentAt, hfresh.accepted]
    exact ByteArray.append_empty.symm
  · cases (h.path ▸ hthere.located).symm.trans hp
    rw [FileStore.contentAt, hthere.holds]

theorem Sound.there (h : Sound path b u) (hplace : u.file.place = some p) : There b u p := by
  rcases h.state with hfresh | ⟨q, hthere⟩
  · cases hfresh.closed.symm.trans hplace
  · rwa [hthere.opened p hplace]

theorem There.reopening (h : There b u p) (hplace : u.file.place = some p) : ∃ events,
    (u.call o .closing).call o .opening = { u with bench := { u.bench with events } } := by
  have hclosed : There b (u.call o .closing) p := by
    rw [call_closing]
    exact { h with opened := by simp [closed] }
  obtain ⟨events, hcall⟩ := hclosed.opening (o := o)
  refine ⟨events, hcall.trans ?_⟩
  rw [call_closing, ← hplace]
  rfl

theorem accepted_of_opened {file : ResultsFile} {bench : Bench}
    (h : (ResultsFile.mk path none 0).opened.run o b = (.ok file, bench))
    (records : List DivergenceRecord) :
    ((start path b).calls o [.opening, .writing records]).accepted = records := by
  have hopened : (start path b).call o .opening = ⟨file, bench, []⟩ := call_ok (c := .opening) h
  have hsound := hopened ▸ (sound_start path b).opening (o := o)
  obtain ⟨p, d, files, events, -, hplace, -⟩ := run_opened h
  obtain ⟨files', hwritten, -⟩ := (hsound.there hplace).writing (o := o) hplace records
  simp only [calls, List.foldl_cons, List.foldl_nil, hopened, hwritten, List.nil_append]

end

/-- However a results file is used, the file holds what was in it and then the lines of the records
accepted so far, as many as are counted. A write is accepted if the file is open, and else it fails
and leaves everything as it was. Closing twice is closing once, and opening again goes on with the
same file. -/
theorem uses_append_what_they_accept (path : Path) (b : Bench) (o : Outside) (cs : List Call) :
    let u := (start path b).calls o cs
    (∀ p, u.bench.files.locate path = .ok p → u.bench.files.contentAt p =
      b.files.contentAt p ++ (Campaign.linesOf u.accepted).toUTF8) ∧
    u.file.written = u.accepted.length ∧
    (u.file.place = none → ∀ records,
      (u.file.write records).run o u.bench = (.error .resultsClosed, u.bench) ∧
      u.call o (.writing records) = u) ∧
    (u.file.place = none → u.call o .closing = u) ∧
    u.call o .closing = { u with file := { u.file with place := none } } ∧
    ∀ p, u.file.place = some p → u.bench.files.locate path = .ok p ∧
      (∃ content, u.bench.files.at? p = some (.file content)) ∧
      (∀ records, ∃ files, u.call o (.writing records) =
        ⟨{ u.file with written := u.file.written + records.length }, { u.bench with files },
          u.accepted ++ records⟩) ∧
      (∃ events, u.call o .opening = { u with bench := { u.bench with events } }) ∧
      ∃ events, (u.call o .closing).call o .opening =
        { u with bench := { u.bench with events } } := by
  intro u
  have h : Sound path b u := (sound_start path b).calls cs
  refine ⟨fun p hp => h.contentAt hp, h.written,
    fun hplace records => ⟨run_write_closed hplace records, call_writing_closed hplace records⟩,
    fun hplace => ?_, call_closing, fun p hplace => ?_⟩
  · rw [call_closing, closed, ← hplace]
  · have hthere := h.there hplace
    refine ⟨h.path ▸ hthere.located, ⟨_, hthere.holds⟩, fun records => ?_, ?_,
      hthere.reopening hplace⟩
    · obtain ⟨files, hcall, -⟩ := hthere.writing (o := o) hplace records
      exact ⟨files, hcall⟩
    · obtain ⟨events, hcall⟩ := hthere.opening (o := o)
      exact ⟨events, by rw [hcall, ← hplace]⟩

/-- A write before the file is opened is refused; one after that is in it before it is closed. -/
theorem uses_append_what_they_accept_opened :
    let u := start Sample.campaign.resultsPath Sample.benchAlone
    let u' := u.calls Sample.divided [.opening, .writing [Sample.record]]
    u.call Sample.divided (.writing [Sample.record]) = u ∧ u'.file.written = 1 ∧
      u'.bench.files.contentAt Sample.resultsPlace = Sample.record.line.toUTF8 := by
  obtain ⟨r, files, events, hrun, -⟩ :=
    Sample.run_opened (o := Sample.divided) (b := Sample.benchAlone) (by decide)
  have haccepted := accepted_of_opened hrun [Sample.record]
  have huses := uses_append_what_they_accept Sample.campaign.resultsPath Sample.benchAlone
    Sample.divided
  obtain ⟨-, -, hclosed, -⟩ := huses []
  obtain ⟨hcontent, hcount, -⟩ := huses [.opening, .writing [Sample.record]]
  rw [haccepted] at hcontent hcount
  have hlines : Campaign.linesOf [Sample.record] = Sample.record.line := by
    simp [Campaign.linesOf]
  have hbefore : Sample.benchAlone.files.contentAt Sample.resultsPlace = .empty := rfl
  rw [hlines] at hcontent
  refine ⟨(hclosed rfl [Sample.record]).2, hcount, (hcontent Sample.resultsPlace
    (FileStore.locate_name _ (by decide) (by decide) (by decide))).trans ?_⟩
  rw [hbefore, ByteArray.empty_append]

end Use

end ResultsFile

end BackendFuzz
