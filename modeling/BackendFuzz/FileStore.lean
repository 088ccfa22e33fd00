import BackendFuzz.Path

/-!
# Files

Files and directories below a working directory, below the directories above it
and below the root, all of which are always there. A path is followed part by
part: every part but the last must be a directory that exists. There are neither
links nor permissions, and nobody else changes anything.
-/

namespace BackendFuzz

-- The same instance whatever a module that imports this one adds.
attribute [local instance(high)] ByteArray.instDecidableEq

inductive FileCause where
  | absent
  | taken
  | notDirectory
  | isDirectory
  | denied
  | tooLong
  deriving DecidableEq, Repr

def FileCause.number : FileCause → Nat
  | absent => 2
  | denied => 13
  | taken => 17
  | notDirectory => 20
  | isDirectory => 21
  | tooLong => 36

def FileCause.message : FileCause → String
  | absent => "No such file or directory"
  | denied => "Permission denied"
  | taken => "File exists"
  | notDirectory => "Not a directory"
  | isDirectory => "Is a directory"
  | tooLong => "File name too long"

def FileCause.kind : FileCause → String
  | absent => "FileNotFoundError"
  | denied => "PermissionError"
  | taken => "FileExistsError"
  | notDirectory => "NotADirectoryError"
  | isDirectory => "IsADirectoryError"
  | tooLong => "OSError"

structure FileFault where
  cause : FileCause
  path : String
  deriving DecidableEq, Repr

def FileFault.message (f : FileFault) : String :=
  s!"[Errno {f.cause.number}] {f.cause.message}: {Text.quote f.path}"

/-- Where a path leads: the names from the root on, or from a directory so many levels above. -/
structure Place where
  absolute : Bool
  above : Nat := 0
  names : List String
  deriving DecidableEq, Repr

namespace Place

/-- The directory above; the root is above itself. -/
def up (p : Place) : Place :=
  if p.names.isEmpty && !p.absolute then { p with above := p.above + 1 }
  else { p with names := p.names.dropLast }

def down (p : Place) (name : String) : Place := { p with names := p.names ++ [name] }

/-- Whether `p` is `q` or lies below it. -/
def within (p q : Place) : Bool := p.absolute == q.absolute && p.above == q.above && q.names.isPrefixOf p.names

end Place

inductive FileNode where
  | file (content : ByteArray)
  | directory
  deriving DecidableEq

structure FileStore where
  nodes : List (Place × FileNode)

namespace FileStore

def empty : FileStore := ⟨[]⟩

def at? (store : FileStore) (p : Place) : Option FileNode :=
  if p.names.isEmpty then some .directory else store.nodes.lookup p

def insertNode (p : Place) (node : FileNode) : List (Place × FileNode) → List (Place × FileNode)
  | [] => [(p, node)]
  | (q, old) :: rest => if q = p then (q, node) :: rest else (q, old) :: insertNode p node rest

def put (store : FileStore) (p : Place) (node : FileNode) : FileStore :=
  ⟨insertNode p node store.nodes⟩

/-- The longest name and the longest path, in bytes. -/
def maxName : Nat := 255

def maxPath : Nat := 4095

def walk (store : FileStore) (p : Place) : List String → Except FileCause Place
  | [] => .ok p
  | part :: rest =>
    match store.at? p with
    | some .directory =>
      if maxName < Path.byteSize part then .error .tooLong
      else store.walk (if part = ".." then p.up else p.down part) rest
    | some (.file _) => .error .notDirectory
    | none => .error .absent

/-- Where a path leads, whether or not something is there. -/
def locate (store : FileStore) (path : Path) : Except FileFault Place :=
  if maxPath < Path.byteSize path.text then .error ⟨.tooLong, path.text⟩
  else
    let start : Place := { absolute := !path.root.isEmpty, names := [] }
    (store.walk start path.parts).mapError (⟨·, path.text⟩)

/-- What is at a path, if anything; only names that are too long are refused. -/
def node? (store : FileStore) (path : Path) : Except FileFault (Option FileNode) :=
  match store.locate path with
  | .ok p => .ok (store.at? p)
  | .error fault => if fault.cause = .tooLong then .error fault else .ok none

def isFile (store : FileStore) (path : Path) : Except FileFault Bool := do
  match ← store.node? path with
  | some (.file _) => return true
  | _ => return false

def isDirectory (store : FileStore) (path : Path) : Except FileFault Bool := do
  match ← store.node? path with
  | some .directory => return true
  | _ => return false

def read (store : FileStore) (path : Path) : Except FileFault ByteArray := do
  let p ← store.locate path
  match store.at? p with
  | some (.file content) => return content
  | some .directory => throw ⟨.isDirectory, path.text⟩
  | none => throw ⟨.absent, path.text⟩

def makeDirectory (store : FileStore) (path : Path) : Except FileFault FileStore := do
  let p ← store.locate path
  match store.at? p with
  | some _ => throw ⟨.taken, path.text⟩
  | none => return store.put p .directory

def ensureDirectory (store : FileStore) (path : Path) : Except FileFault FileStore :=
  match store.makeDirectory path with
  | .ok made => .ok made
  | .error fault => do if ← store.isDirectory path then return store else throw fault

/-- The store after a change that may be refused, and what refused it. -/
def settle (store : FileStore) : Except FileFault FileStore → FileStore × Option FileFault
  | .ok changed => (changed, none)
  | .error fault => (store, some fault)

/-- Makes a directory and those above it, unless they are there; the parts come last one first.
Those made before one is refused stay. -/
def furnishFrom (store : FileStore) (root : String) : List String → FileStore × Option FileFault
  | [] => store.settle (store.ensureDirectory ⟨root, []⟩)
  | part :: above =>
    let path : Path := ⟨root, (part :: above).reverse⟩
    match store.ensureDirectory path with
    | .error ⟨.absent, _⟩ =>
      let made := store.furnishFrom root above
      if made.2.isNone then made.1.settle (made.1.ensureDirectory path) else made
    | settled => store.settle settled

def furnish (store : FileStore) (path : Path) : FileStore × Option FileFault :=
  store.furnishFrom path.root path.parts.reverse

def ensureDirectories (store : FileStore) (path : Path) : Except FileFault FileStore :=
  match store.furnish path with
  | (made, none) => .ok made
  | (_, some fault) => .error fault

def createFile (store : FileStore) (path : Path) : Except FileFault FileStore := do
  let p ← store.locate path
  match store.at? p with
  | some _ => throw ⟨.taken, path.text⟩
  | none => return store.put p (.file ByteArray.empty)

def touchFile (store : FileStore) (path : Path) : Except FileFault FileStore := do
  let p ← store.locate path
  match store.at? p with
  | some (.file _) => return store
  | some .directory => throw ⟨.isDirectory, path.text⟩
  | none => return store.put p (.file ByteArray.empty)

def appendAt (store : FileStore) (p : Place) (bytes : ByteArray) : FileStore :=
  match store.at? p with
  | some (.file content) => store.put p (.file (content ++ bytes))
  | _ => store

def writeFile (store : FileStore) (path : Path) (content : ByteArray) :
    Except FileFault FileStore := do
  let p ← store.locate path
  match store.at? p with
  | some .directory => throw ⟨.isDirectory, path.text⟩
  | _ => return store.put p (.file content)

def removeTree (store : FileStore) (path : Path) : FileStore :=
  match store.locate path with
  | .ok p => ⟨store.nodes.filter fun n => !n.1.within p⟩
  | .error _ => store

end FileStore

end BackendFuzz
