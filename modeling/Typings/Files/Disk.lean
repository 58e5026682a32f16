import Typings.Files.Memory

/-!
# Files on a disk

A `Disk` is a tree of directories and files with a current directory.  A path is followed step by
step from the root or from the current directory: every step but the last must be a directory, and
`..` leads to the directory above.

* `Disk.locate`: where a path leads.
* `Disk.makeDir`, `Disk.removeDir`, `Disk.writeFile`, …: what the system does.
* `Disk.store`: the operations as a store.

The faults are those that the system reports, in the order in which it finds them.  A script that is
run on a disk sees what another has written there before it.
-/

namespace Typings.Files

/-- The files and directories under their plain absolute paths; the root is always a directory. -/
structure Disk where
  files : PathMap Text := {}
  dirs : PathSet := PathSet.ofPaths ["/"]
  currentDir : Path := "/"
deriving Inhabited

/-- Where a path leads. -/
inductive Place where
  | directory (path : Path)
  | file (path : Path)
  /-- Nothing, in a directory that is there; `asDirectory` when the path ends in a slash. -/
  | vacant (path : Path) (asDirectory : Bool)
deriving DecidableEq, Repr

namespace Disk

/-- Follows the pieces of a path from a directory. -/
def follow (d : Disk) (here : Path) : List Text → Except SystemFault Place
  | [] => .ok (.directory here)
  | piece :: rest =>
    if piece.isEmpty || piece == "." then d.follow here rest
    else if piece == ".." then d.follow (here.parent?.getD here) rest
    else
      let next := here.join ⟨piece⟩
      if d.dirs.contains next then d.follow next rest
      else if d.files.contains next then
        if rest.isEmpty then .ok (.file next) else .error .notDirectory
      else if rest.all List.isEmpty then .ok (.vacant next !rest.isEmpty)
      else .error .noEntry

/-- Where a path leads. -/
def locate (d : Disk) (p : Path) : Except SystemFault Place :=
  if p.text.isEmpty then .error .noEntry
  else if p.text.contains '\x00' then .error .nulCharacter
  else d.follow (if p.isAbsolute then "/" else d.currentDir) (List.splitOn '/' p.text)

/-- There is a file or a directory. -/
def isThere (d : Disk) (p : Path) : Bool :=
  match d.locate p with
  | .ok (.directory _) => true
  | .ok (.file _) => true
  | _ => false

/-- There is a directory. -/
def isDirectory (d : Disk) (p : Path) : Bool :=
  match d.locate p with
  | .ok (.directory _) => true
  | _ => false

/-- The text of a file. -/
def readFile (d : Disk) (p : Path) : Except SystemFault Text := do
  match ← d.locate p with
  | .file q => match d.files.get? q with
    | some t => .ok t
    | none => .error .noEntry
  | .directory _ => .error .isDirectory
  | .vacant _ _ => .error .noEntry

/-- Writes a file whose directory is there. -/
def writeFile (d : Disk) (p : Path) (content : Text) : Except SystemFault Disk := do
  match ← d.locate p with
  | .file q => .ok { d with files := d.files.insert q content }
  | .directory _ => .error .isDirectory
  | .vacant _ true => .error .isDirectory
  | .vacant q false => .ok { d with files := d.files.insert q content }

/-- Removes a file. -/
def removeFile (d : Disk) (p : Path) : Except SystemFault Disk := do
  match ← d.locate p with
  | .file q => .ok { d with files := d.files.erase q }
  | .directory _ => .error .isDirectory
  | .vacant _ _ => .error .noEntry

/-- Makes a directory in one that is there. -/
def makeDir (d : Disk) (p : Path) : Except SystemFault Disk := do
  match ← d.locate p with
  | .vacant q _ => .ok { d with dirs := PathSet.add d.dirs q }
  | _ => .error .exists

/-- The plain paths of the children of a directory. -/
def children (d : Disk) (dir : Path) : List DirEntry :=
  let files := (d.files.keys.filter (Memory.isChild dir)).map fun p => ⟨p, false⟩
  let dirs := (d.dirs.keys.filter (Memory.isChild dir)).map fun p => ⟨p, true⟩
  Memory.sortEntries (files ++ dirs)

/-- Removes an empty directory, unless the path ends in a dot. -/
def removeEmptyDir (d : Disk) (p : Path) : Except SystemFault Disk := do
  match ← d.locate p with
  | .directory q =>
    if (List.splitOn '/' p.text).getLast? == some "." then .error .invalidArgument
    else if !(d.children q).isEmpty then .error .notEmpty
    else if q.same "/" then .error .busy
    else .ok { d with dirs := d.dirs.erase q }
  | .file _ => .error .notDirectory
  | .vacant _ _ => .error .noEntry

/-- The children of a directory, spelled below the path that was asked for. -/
def listDir (d : Disk) (p : Path) : Except SystemFault (List DirEntry) := do
  match ← d.locate p with
  | .directory q =>
    .ok ((d.children q).map fun e => ⟨p.join ⟨e.path.fileName?.getD []⟩, e.isDir⟩)
  | .file _ => .error .notDirectory
  | .vacant _ _ => .error .noEntry

/-- Makes the first of some directories, each of which lies in the next, with those that are
    missing. -/
def makeDirs : List Path → EStateM SystemFault Disk Unit
  | [] => throw .noEntry
  | p :: above => do
    if p.text.isEmpty then return
    let d ← get
    match d.makeDir p with
    | .ok d' => set d'
    | .error .noEntry =>
      makeDirs above
      let d ← get
      match d.makeDir p with
      | .ok d' => set d'
      | .error e => if d.isDirectory p then return else throw e
    | .error e => if d.isDirectory p then return else throw e

/-- A system operation as one of the store, about a path. -/
def change (p : Path) (f : Disk → Except SystemFault Disk) : StoreM Disk Unit := fun d =>
  match f d with
  | .ok d' => .ok () d'
  | .error e => .error (.ofFault p e) d

/-- Makes a directory with those above it. -/
def createDirs (p : Path) : StoreM Disk Unit := fun d =>
  match makeDirs p.ancestors d with
  | .ok _ d' => .ok () d'
  | .error e d' => .error (.ofFault p e) d'

/-- Writes a file, with the directories above it. -/
def write (p : Path) (content : Text) : StoreM Disk Unit := do
  if let some dir := p.parent? then
    let d ← get
    if !dir.text.isEmpty && !d.isThere dir then createDirs dir
  change p (·.writeFile p content)

/-- The operations as a store. -/
def store : FileStore Disk where
  read d p := (d.readFile p).mapError (.ofFault p)
  isThere := isThere
  list d p := (d.listDir p).mapError (.ofFault p)
  write := write
  remove p := change p (·.removeFile p)
  createDirs := createDirs
  removeDir p := change p (·.removeEmptyDir p)
  depth d := d.dirs.keys.foldl (fun n p => max n p.components.length) 0

/-- The disk after an operation, whether it failed or not. -/
def after {α : Type} (op : StoreM Disk α) (d : Disk) : Disk :=
  match op d with
  | .ok _ d' => d'
  | .error _ d' => d'

/-- The disk with some more directories and files. -/
def seed (d : Disk) (dirs : List Path) (files : List (Path × Text)) : Disk :=
  files.foldl (fun d (p, t) => after (write p t) d) (dirs.foldl (fun d p => after (createDirs p) d) d)

end Disk

end Typings.Files
