import BackendFuzz.Proofs.Execution.Verdict
import BackendFuzz.Proofs.Session.Scratch

/-!
# Runs of the machine

A run comes to the verdict on the machine's reply, whatever was there before,
and leaves no file behind.
-/

namespace BackendFuzz

namespace Machine

/-! ## Files of a run -/

def scratchPlace : Place := { absolute := false, names := ["solc-fuzz-evm-scratch"] }

def storagePlace : Place := scratchPlace.down "storage.json"

def logsPlace : Place := scratchPlace.down "logs.json"

theorem locate_scratch (files : FileStore) : files.locate scratch = .ok scratchPlace :=
  FileStore.locate_name files (by decide) (by decide) (by decide)

section
variable {files : FileStore} (hd : files.at? scratchPlace = some .directory)
include hd

theorem locate_storageFile : files.locate storageFile = .ok storagePlace :=
  FileStore.locate_inside hd (by decide) (by decide) (by decide) (by decide) (by decide)

theorem locate_logsFile : files.locate logsFile = .ok logsPlace :=
  FileStore.locate_inside hd (by decide) (by decide) (by decide) (by decide) (by decide)

end

def withDump (files : FileStore) (p : Place) : Option ByteArray → FileStore
  | none => files
  | some content => files.put p (.file content)

theorem at?_withDump_of_ne {files : FileStore} {p q : Place} (h : q ≠ p)
    (dump : Option ByteArray) : (withDump files p dump).at? q = files.at? q := by
  cases dump with
  | none => rfl
  | some content => exact files.at?_put_of_ne h

theorem at?_withDump_self {files : FileStore} {p : Place} (hp : p.names ≠ [])
    (h : files.at? p = none) (dump : Option ByteArray) :
    (withDump files p dump).at? p = dump.map .file := by
  cases dump with
  | none => exact h
  | some content => exact files.at?_put_self hp

theorem extended_withDump {files files' : FileStore} {p q : Place} (hu : files.Unused p)
    (h : FileStore.Extended p files files') (hq : q.within p = true) (dump : Option ByteArray) :
    FileStore.Extended p files (withDump files' q dump) := by
  cases dump with
  | none => exact h
  | some content => exact h.put hu hq

section
variable {o : Outside} {b : Bench} {path : Path} {p : Place}

theorem run_writeDump (hf : path.flaw? = none) (hl : b.files.locate path = .ok p)
    (hn : b.files.at? p = none) (dump : Option ByteArray) :
    (writeDump path dump).run o b = (.ok (), { b with files := withDump b.files p dump }) := by
  cases dump with
  | none => exact Session.run_pure o b ()
  | some content =>
    have hw : b.files.writeFile path content = .ok (b.files.put p (.file content)) := by
      simp [FileStore.writeFile, hl, hn, bind, Except.bind, pure, Except.pure]
    simp only [writeDump, Session.writeFile, withDump]
    exact Session.run_changeFiles o b hf hw

theorem run_readDump (hf : path.flaw? = none) (hl : b.files.locate path = .ok p)
    {dump : Option ByteArray} (hd : b.files.at? p = dump.map .file) (what : String) :
    (readDump path what).run o b = (dumpOf path what dump, b) := by
  have hr : b.files.read path = match dump with
      | some content => .ok content
      | none => .error ⟨.absent, path.text⟩ := by
    cases dump <;> simp [FileStore.read, hl, hd, bind, Except.bind, pure, Except.pure, throw,
      throwThe, MonadExceptOf.throw]
  unfold readDump
  rw [Session.run_bind, Session.run_tryCatch]
  simp only [Session.readTextFile, Session.checkPath, hf, pure_bind, Session.run_bind,
    Session.run_get, hr]
  cases dump with
  | none => rfl
  | some content =>
    simp only [dumpOf]
    cases Text.decode content with
    | error fault => rfl
    | ok text => exact Session.run_ofExcept o b _

/-! ## One run -/

variable (settings : Settings) (bytecode : Json) (callData : String) (revision : Int)

def request : Request :=
  .machine (command settings bytecode callData revision) settings.vmTimeout

def dumped (files : FileStore) (reply : MachineReply) : FileStore :=
  withDump (withDump files storagePlace reply.storage) logsPlace reply.logs

variable {settings bytecode callData revision}

theorem run_start (hk : bytecode.checkKey = .ok ())
    (hd : b.files.at? scratchPlace = some .directory) (hs : b.files.at? storagePlace = none)
    (hl : b.files.at? logsPlace = none) : ∃ events,
    (start settings bytecode callData revision).run o b =
      (endedOf settings (command settings bytecode callData revision)
        (o.machine b.asked bytecode).reply,
       { b with
          asked := b.asked ++ [request settings bytecode callData revision], events
          files := dumped b.files (o.machine b.asked bytecode) }) := by
  generalize hr : o.machine b.asked bytecode = reply
  let b₁ : Bench := { b with asked := b.asked ++ [request settings bytecode callData revision] }
  let b₂ : Bench := { b₁ with files := withDump b.files storagePlace reply.storage }
  have hd₂ : b₂.files.at? scratchPlace = some .directory := by
    rw [at?_withDump_of_ne (by decide), hd]
  have hl₂ : b₂.files.at? logsPlace = none := by rw [at?_withDump_of_ne (by decide), hl]
  have hnote : (Session.note (.machine (command settings bytecode callData revision)
      settings.vmTimeout)).run o b = (.ok b.asked, b₁) := Session.run_note o b _
  have hkey : (Session.looking bytecode.checkKey).run o b₁ = (.ok (), b₁) := by
    rw [Session.run_looking, hk]; rfl
  have hstorage : (writeDump storageFile reply.storage).run o b₁ = (.ok (), b₂) :=
    run_writeDump (b := b₁) (by decide) (locate_storageFile hd) hs reply.storage
  have hlogs : (writeDump logsFile reply.logs).run o b₂ =
      (.ok (), { b₂ with files := dumped b.files reply }) :=
    run_writeDump (by decide) (locate_logsFile hd₂) hl₂ reply.logs
  unfold start
  simp only [Session.run_bind_ok hnote, Session.run_bind_ok hkey,
    Session.run_bind_ok (Session.run_read o b₁), hr, Session.run_bind_ok hstorage,
    Session.run_bind_ok hlogs]
  cases hreply : reply.reply with
  | ended e =>
    by_cases hc : e.code = 0
    · simp only [Session.settled, pure_bind, hc, ne_eq, not_true_eq_false, ite_false, endedOf]
      exact ⟨_, rfl⟩
    · simp only [Session.settled, pure_bind, hc, ne_eq, not_false_eq_true, ite_true, endedOf]
      exact ⟨_, rfl⟩
  | _ => exact ⟨b.events, rfl⟩

def observe (settings : Settings) (bytecode : Json) (callData : String) (revision : Int) :
    Session (Ended × String × String × Json × Json) := do
  let ended ← start settings bytecode callData revision
  match readReport ended.output with
  | none => throw (.process { cause := .machineStatus, output := ended.output })
  | some (status, shown) =>
    let storage ← readDump storageFile "storage"
    let logs ← readDump logsFile "logs"
    pure (ended, status, shown, storage, logs)

theorem execute_eq : execute settings bytecode callData revision = (do
    Session.debug .machine s!"Running EVM for revision {revision}"
    let (ended, status, shown, storage, logs) ←
      withScratch scratch (observe settings bytecode callData revision)
    Session.ofExcept (outcomeOf ended.output status shown storage logs)) := rfl

theorem run_observe (hk : bytecode.checkKey = .ok ())
    (hd : b.files.at? scratchPlace = some .directory) (hs : b.files.at? storagePlace = none)
    (hl : b.files.at? logsPlace = none) : ∃ events,
    (observe settings bytecode callData revision).run o b =
      (observed settings (command settings bytecode callData revision)
        (o.machine b.asked bytecode),
       { b with
          asked := b.asked ++ [request settings bytecode callData revision], events
          files := dumped b.files (o.machine b.asked bytecode) }) := by
  obtain ⟨events, hstart⟩ := @run_start o b settings bytecode callData revision hk hd hs hl
  generalize o.machine b.asked bytecode = reply at hstart ⊢
  refine ⟨events, ?_⟩
  generalize hb : ({ b with asked := _, events := events, files := _ } : Bench) = b' at hstart ⊢
  have hfiles : b'.files = dumped b.files reply := by rw [← hb]
  have hd' : b'.files.at? scratchPlace = some .directory := by
    rw [hfiles, dumped, at?_withDump_of_ne (by decide), at?_withDump_of_ne (by decide), hd]
  have hs' : b'.files.at? storagePlace = reply.storage.map .file := by
    rw [hfiles, dumped, at?_withDump_of_ne (by decide), at?_withDump_self (by decide) hs]
  have hl' : b'.files.at? logsPlace = reply.logs.map .file := by
    rw [hfiles, dumped, at?_withDump_self (by decide)]
    rw [at?_withDump_of_ne (by decide), hl]
  have hstorage := run_readDump (o := o) (by decide) (locate_storageFile hd') hs' "storage"
  have hlogs := run_readDump (o := o) (by decide) (locate_logsFile hd') hl' "logs"
  rw [observe, Session.run_bind, hstart, observed]
  cases endedOf settings (command settings bytecode callData revision) reply.reply with
  | error fault => rfl
  | ok ended =>
    simp only [ok_bind]
    cases readReport ended.output with
    | none => rfl
    | some report =>
      obtain ⟨status, shown⟩ := report
      simp only [Session.run_bind, hstorage]
      cases dumpOf storageFile "storage" reply.storage with
      | error fault => rfl
      | ok storage =>
        simp only [hlogs]
        cases dumpOf logsFile "logs" reply.logs <;> rfl

/-- A run comes to the verdict on the machine's reply, and but for the request and what is logged
it leaves everything as it was. -/
theorem run_execute (hk : bytecode.checkKey = .ok ()) (hu : b.files.Unused scratchPlace) :
    ∃ events, (execute settings bytecode callData revision).run o b =
      (verdict settings (command settings bytecode callData revision)
        (o.machine b.asked bytecode),
       { b with asked := b.asked ++ [request settings bytecode callData revision], events }) := by
  rw [execute_eq, Session.run_bind_ok (Session.run_debug o b _ _)]
  generalize hb : ({ b with events := _ } : Bench) = b₀
  have hfiles : b₀.files = b.files := by rw [← hb]
  have hn : ∀ {q : Place}, q.within scratchPlace = true → b₀.files.at? q = none := by
    intro q hq
    rw [hfiles]
    exact FileStore.at?_of_unused hu (by decide) hq
  generalize hb' : ({ b₀ with files := b₀.files.put scratchPlace .directory } : Bench) = b₁
  have hd : b₁.files.at? scratchPlace = some .directory := by
    rw [← hb']; exact FileStore.at?_put_self _ (by decide)
  have hdown : ∀ name, b₁.files.at? (scratchPlace.down name) = none := by
    intro name
    rw [← hb', FileStore.at?_put_of_ne _ (by simp [Place.down, scratchPlace])]
    exact hn (FileStore.within_down _ name)
  obtain ⟨events, hrun⟩ := @run_observe o b₁ settings bytecode callData revision hk hd
    (hdown _) (hdown _)
  have hgone : (dumped b₁.files (o.machine b₁.asked bytecode)).removeTree scratch = b₀.files := by
    refine FileStore.Extended.removeTree (hfiles ▸ hu) ?_ (locate_scratch _)
    rw [← hb']
    exact extended_withDump (hfiles ▸ hu) (extended_withDump (hfiles ▸ hu)
      ((FileStore.Extended.refl _ _).put (hfiles ▸ hu) (FileStore.within_self _))
      (FileStore.within_down _ _) _) (FileStore.within_down _ _) _
  rw [Session.run_bind, run_withScratch (by decide) (locate_scratch _) (hn (FileStore.within_self _)),
    hb', hrun]
  refine ⟨events, ?_⟩
  have hasked' : b₁.asked = b.asked := by rw [← hb', ← hb]
  rw [hasked'] at hgone
  simp only [hasked', hgone, verdict]
  subst hb'
  subst hb
  cases observed settings (command settings bytecode callData revision) (o.machine b.asked bytecode) with
  | error fault => rfl
  | ok seen => simp only [ok_bind, Session.run_ofExcept]

end

end Machine

end BackendFuzz
