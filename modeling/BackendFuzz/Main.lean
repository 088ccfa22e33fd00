import BackendFuzz.Log.Record
import BackendFuzz.Program

/-!
# The command line

Looks at the files that the arguments name, runs the program on them, and writes
back what it changed. No other program is started from here: a campaign ends
where it asks for the first of its tools.
-/

namespace BackendFuzz.Main

def settingNames : List String :=
  ["solc_path", "solc_wrapper_path", "solc_version_wrapper_path", "default_solc_version",
    "solc_install_missing", "compile_timeout", "evm_path", "evmc_path", "vm_timeout",
    "rewriter_path", "rewrite_timeout", "log_level", "log_pretty"]

def environment : IO Settings.Named := do
  let names := settingNames.flatMap fun name => [name, name.toUpper]
  names.filterMapM fun name => do return (← IO.getEnv name).map fun value => (name, value)

/-! ## Files -/

def look (path : Path) : IO (Option FileNode) := do
  try
    return some (.file (← IO.FS.readBinFile path.text))
  catch
    | .inappropriateType .. => return some .directory
    | _ => return none

def takeIn (store : FileStore) (path : Path) : IO FileStore := do
  let mut store := store
  for n in List.range path.parts.length do
    let here : Path := { path with parts := path.parts.take (n + 1) }
    match store.locate here, ← look here with
    | .ok place, some node => store := store.put place node
    | _, _ => pure ()
  return store

/-- The texts among the arguments that may be paths. -/
def mentioned (words : List String) : List String :=
  words.flatMap fun word => [word, (word.splitOn "=").getLastD word]

def files (words : List String) : IO FileStore :=
  ([".env", "fuzzer-results"] ++ mentioned words).foldlM (fun store text =>
    takeIn store (Path.ofText text)) FileStore.empty

def writeBack (old new : FileStore) : IO Unit := do
  for (place, node) in new.nodes do
    if old.at? place ≠ some node then
      let path : Path :=
        ⟨if place.absolute then "/" else "", List.replicate place.above ".." ++ place.names⟩
      match node with
      | .directory => IO.FS.createDirAll path.text
      | .file content => IO.FS.writeBinFile path.text content

/-! ## Output -/

def logLines (now : Moment) (logging : Option (String × Bool)) (events : List LogEvent) :
    List String :=
  let (level, coloured) := logging.getD ("INFO", false)
  let least := (levelNumber level).toOption.getD 0
  (events.filter fun e => least ≤ e.level.number).map fun e =>
    let record := LogRecord.ofEvent now e
    if coloured then record.colouredLine else record.jsonLine

/-- The time given to events; no event of a session is timed from here. -/
def start : Moment :=
  { year := 1970, month := 1, day := 1, hour := 0, minute := 0, second := 0, microsecond := 0 }

def budget : Nat := 1000000

end BackendFuzz.Main

open BackendFuzz in
def main (words : List String) : IO UInt32 := do
  let store ← Main.files words
  let session := Program.run words (← Main.environment) Main.budget
  let (result, bench) := session.run (.alone Main.start) { files := store }
  Main.writeBack store bench.files
  for line in bench.printed do
    IO.println line
  match result with
  | .ok ended =>
    for line in Main.logLines Main.start ended.logging bench.events do
      IO.eprintln line
    IO.print ended.help
    IO.eprint ended.errors
    return UInt32.ofNat ended.status
  | .error fault =>
    IO.eprintln fault.message
    return 1
