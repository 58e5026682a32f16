import Typings.Files.Store

/-!
# Files in memory

A `Memory` holds texts by their places.  A directory is there once something has been written below
it, and stays until it is removed.

* `Memory.insert`, `Memory.removeFile`, `Memory.removeDir`, …: the operations.
* `Memory.store`: the operations as a store.
* `Memory.directories`: the directories below a place, each followed by what is in it.

An operation that the contents do not allow fails and leaves them as they were.  That the directories
stay closed upward, so that whatever is there lies below directories that are there, is shown for
every sequence of operations in `Proofs.Files.Directories`.
-/

namespace Typings.Files

/-- Texts by their places, and the directories. -/
structure Memory where
  files : PathMap Text := {}
  dirs : PathSet := {}
deriving Inhabited

namespace Memory

/-- The directories with those above a place, up to the first that is there already. -/
def addAncestors (dirs : PathSet) (above : List Path) : PathSet :=
  match above with
  | [] => dirs
  | dir :: rest =>
    if dir.text.isEmpty || dirs.contains dir then dirs else addAncestors (PathSet.add dirs dir) rest

/-- The directories with all those above a place. -/
def withAncestors (dirs : PathSet) (p : Path) : PathSet := addAncestors dirs p.ancestors.tail

/-- Puts a text at a place. -/
def insert (m : Memory) (p : Path) (content : Text) : Memory :=
  { files := m.files.insert p content, dirs := withAncestors m.dirs p }

/-- The memory with some files. -/
def ofFiles (files : List (Path × Text)) : Memory :=
  files.foldl (fun m (p, t) => m.insert p t) {}

/-- The text at a place. -/
def read (m : Memory) (p : Path) : Except StoreError Text :=
  match m.files.get? p with
  | some t => .ok t
  | none => .error (.notFound p)

/-- There is a file or a directory. -/
def isThere (m : Memory) (p : Path) : Bool := m.files.contains p || m.dirs.contains p

/-- `p` lies directly in `dir`. -/
def isChild (dir p : Path) : Bool :=
  match p.parent? with
  | some up => up.same dir
  | none => false

/-- Entries in the order of their paths; of two at one place the first stays in front. -/
def sortEntries (entries : List DirEntry) : List DirEntry :=
  entries.mergeSort fun a b => a.path.compare b.path != .gt

/-- The children of a directory. -/
def list (m : Memory) (dir : Path) : Except StoreError (List DirEntry) :=
  if m.dirs.contains dir then
    let files := (m.files.keys.filter (isChild dir)).map fun p => ⟨p, false⟩
    let dirs := (m.dirs.keys.filter (isChild dir)).map fun p => ⟨p, true⟩
    .ok (sortEntries (files ++ dirs))
  else .error (.notFound dir)

/-- Removes a file. -/
def removeFile (m : Memory) (p : Path) : Except StoreError Memory :=
  if m.files.contains p then .ok { m with files := m.files.erase p } else .error (.notFound p)

/-- Makes a directory with those above it. -/
def createDirs (m : Memory) (p : Path) : Memory :=
  { m with dirs := withAncestors (PathSet.add m.dirs p) p }

/-- Something lies in the directory. -/
def isOccupied (m : Memory) (dir : Path) : Bool :=
  m.files.keys.any (·.startsWith dir) || m.dirs.keys.any fun d => !d.same dir && d.startsWith dir

/-- Removes an empty directory. -/
def removeDir (m : Memory) (dir : Path) : Except StoreError Memory :=
  if m.isOccupied dir then .error (.occupied dir)
  else if m.dirs.contains dir then .ok { m with dirs := m.dirs.erase dir }
  else .error (.notFound dir)

/-- A change that can fail, as an operation on the store. -/
def update (f : Memory → Except StoreError Memory) : StoreM Memory Unit := fun m =>
  match f m with
  | .ok m' => .ok () m'
  | .error e => .error e m

/-- The operations as a store. -/
def store : FileStore Memory where
  read := read
  isThere := isThere
  list := list
  write p t := update fun m => .ok (m.insert p t)
  remove p := update fun m => m.removeFile p
  createDirs p := update fun m => .ok (m.createDirs p)
  removeDir p := update fun m => m.removeDir p
  depth m := m.dirs.keys.foldl (fun n d => max n d.components.length) 0

mutual

/-- The directories among some entries, each followed by what is in it. -/
def subdirectories (m : Memory) (fuel : Nat) : List DirEntry → List Path
  | [] => []
  | e :: rest =>
    (if e.isDir then e.path :: directoriesWithin m fuel e.path else []) ++
      subdirectories m fuel rest

/-- The directories below a place, at most `fuel` levels deep. -/
def directoriesWithin (m : Memory) : Nat → Path → List Path
  | 0, _ => []
  | fuel + 1, dir =>
    match m.list dir with
    | .ok entries => subdirectories m fuel entries
    | .error _ => []

end

/-- The directories below a place, each followed by what is in it. -/
def directories (m : Memory) (dir : Path) : List Path := m.directoriesWithin (store.depth m + 1) dir

end Memory

end Typings.Files
