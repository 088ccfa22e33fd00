import BackendFuzz.Divergence.Record
import BackendFuzz.Session

/-!
# Results

The results file is a list of lines, one record each, to which the records of
each iteration are appended together. The sources of variants are kept in files
that are written once.
-/

namespace BackendFuzz

structure ResultsFile where
  path : Path
  /-- Where lines go while the file is open. -/
  place : Option Place := none
  written : Nat := 0

namespace ResultsFile

def opened (r : ResultsFile) : Session ResultsFile := do
  Session.furnish r.path.parent
  Session.changeFiles r.path FileStore.touchFile
  Session.info .results s!"Writing results to {r.path.text}"
  let files := (← get).files
  return { r with place := (files.locate r.path).toOption }

def write (r : ResultsFile) (records : List DivergenceRecord) : Session ResultsFile := do
  match r.place with
  | none => throw .resultsClosed
  | some place =>
    if records.isEmpty then return r
    let lines ← Session.encoded (String.join (records.map (·.line)))
    modify fun b => { b with files := b.files.appendAt place lines }
    return { r with written := r.written + records.length }

def closed (r : ResultsFile) : ResultsFile := { r with place := none }

end ResultsFile

/-- Writes a variant's source unless something is at the path; says whether it did. -/
def saveVariant (path : Path) (source : Json) : Session Bool := do
  Session.furnish path.parent
  Session.checkPath path
  match (← get).files.createFile path with
  | .error fault =>
    if fault.cause = .taken then return false else throw (.file fault)
  | .ok files =>
    modify fun b => { b with files }
    match source with
    | .text text => Session.writeFile path (← Session.encoded text)
    | v => throw (.misuse (.written v.kind))
    Session.debug .results s!"Saved variant {path.text}"
    return true

end BackendFuzz
