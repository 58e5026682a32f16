import Typings.Error
import Typings.Path.Map

/-!
# Stores of files

A build reads and writes through a `FileStore`, so that it can run on a disk as well as on files that
are only held in memory.

* `FileStore`: the operations on a store with contents `σ`.
* `FileStore.prune`: removes a directory that holds no files at any depth.
* `FileStore.zoom`: the store inside of a larger state.

An operation may change the store before it fails, and what it changed stays. Pruning is made out of
the other operations: it goes down as deep as the store says that directories may lie, and
`Proofs.Files.Clearing` says which directories it removes.
-/

namespace Typings.Files

/-- One child of a directory. -/
structure DirEntry where
  path : Path
  isDir : Bool
deriving DecidableEq, Repr

/-- An operation that changes a store; what it changed before it failed stays changed. -/
abbrev StoreM (σ : Type) := EStateM StoreError σ

/-- The operations on a store with contents `σ`. -/
structure FileStore (σ : Type) where
  /-- The text of a file. -/
  read : σ → Path → Except StoreError Text
  /-- There is a file or a directory. -/
  isThere : σ → Path → Bool
  /-- The children of a directory in the order of their paths. -/
  list : σ → Path → Except StoreError (List DirEntry)
  /-- Makes a file, with the directories above it, or replaces its text. -/
  write : Path → Text → StoreM σ Unit
  /-- Removes a file. -/
  remove : Path → StoreM σ Unit
  /-- Makes a directory with those above it. -/
  createDirs : Path → StoreM σ Unit
  /-- Removes an empty directory. -/
  removeDir : Path → StoreM σ Unit
  /-- No directory lies deeper than this. -/
  depth : σ → Nat

namespace FileStore

variable {σ τ : Type}

/-- Prunes each child that is a directory; tells whether nothing is left. -/
def pruneChildren (prune : Path → StoreM σ Bool) : List DirEntry → StoreM σ Bool
  | [] => pure true
  | child :: rest => do
    let gone ← if child.isDir then prune child.path else pure false
    let others ← pruneChildren prune rest
    return gone && others

/-- Removes `dir` when there are no files below it; tells whether it did. -/
def pruneWithin (s : FileStore σ) : Nat → Path → StoreM σ Bool
  | 0, _ => pure false
  | fuel + 1, dir => do
    let world ← get
    if !s.isThere world dir then return false
    match s.list world dir with
    | .error e => throw e
    | .ok children =>
      let emptied ← pruneChildren (s.pruneWithin fuel) children
      if emptied then s.removeDir dir
      return emptied

/-- Removes `dir` and the directories in it when they hold no files at all; directories in it that
    hold none are removed in any case.  Tells whether `dir` was removed. -/
def prune (s : FileStore σ) (dir : Path) : StoreM σ Bool := do
  let world ← get
  s.pruneWithin (s.depth world + 1) dir

/-- There is a file. -/
def isFile (s : FileStore σ) (world : σ) (p : Path) : Bool := (s.read world p).isOk

/-- There is a directory. -/
def isDirectory (s : FileStore σ) (world : σ) (p : Path) : Bool := (s.list world p).isOk

/-- The store as the first part of a pair. -/
def zoom (s : FileStore σ) : FileStore (σ × τ) where
  read w := s.read w.1
  isThere w := s.isThere w.1
  list w := s.list w.1
  write p t := inFirst (s.write p t)
  remove p := inFirst (s.remove p)
  createDirs p := inFirst (s.createDirs p)
  removeDir p := inFirst (s.removeDir p)
  depth w := s.depth w.1
where
  /-- Runs an operation on the first part. -/
  inFirst {α : Type} (op : StoreM σ α) : StoreM (σ × τ) α := fun (w, t) =>
    match op w with
    | .ok a w => .ok a (w, t)
    | .error e w => .error e (w, t)

end FileStore

end Typings.Files
