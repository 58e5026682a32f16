import Typings.Session.Transform

/-!
# Flushing a session

A flush makes the declarations that are still missing, writes all recorded outputs, adds root files
and rollups, and copies the result to the other output directories.

* `Report`: what a flush produced.
* `Host.writeBundle`: the flush; nothing happens when there is nothing new.

The session counts as flushed from the beginning of a flush on. A source that has been asked for is no
longer pending. Then everything recorded is written, not only what is new, and a file that another
hand has changed meanwhile is written over.
-/

namespace Typings

/-- What a flush produced. -/
structure Report where
  /-- The files in the main output directory. -/
  written : List Path
  /-- Those that were rolled up. -/
  rolledUp : List Path
  /-- The copies in the other directories. -/
  replicated : List Path
  version : Nat
deriving DecidableEq, Repr, Inhabited

/-- The number of files in all directories. -/
def Report.fileCount (r : Report) : Nat := r.written.length + r.replicated.length

namespace Host

variable {σ π : Type}

/-- Records what is still missing of one source: a copy of a declaration, and what is pending. -/
def flushSource (h : Host σ π) (f : SourceFile) : SessionM σ π Unit := do
  let b ← SessionM.started
  let path := f.path.normalize
  if !b.filter.accepts path then return
  let b := if h.options.copyDeclarations && f.isDeclaration then record path [⟨path, f.text⟩] b else b
  if b.pending.contains path then
    let b := { b with pending := b.pending.erase path }
    SessionM.setBuild (record path (← h.emitted b f.path) b)
  else SessionM.setBuild b

/-- Records what is still missing of some sources. -/
def flushSources (h : Host σ π) : List SourceFile → SessionM σ π Unit
  | [] => return
  | f :: rest => do
    h.flushSource f
    h.flushSources rest

/-- How recorded outputs become files. -/
def layout (h : Host σ π) (p : π) (b : Build) : Layout where
  steps := b.steps
  cleanComponents := h.options.cleanComponents
  currentDir := h.compiler.currentDir p
  publicRoot := b.publicRoot
  entryRoot := b.entryRoot
  outDir := h.options.outDir

/-- What root files are made for. -/
def rootFiles (h : Host σ π) (b : Build) : RootFiles where
  root := h.options.root
  entryRoot := b.entryRoot
  entries := h.options.entries
  indexName := h.options.indexName
  libraryName := LibraryName.libraryName h.options.libraryName

/-- What the entries are rolled up with. -/
def rollup (h : Host σ π) (p : π) (b : Build) (engine : RollupEngine σ) : Rollup σ where
  engine := engine
  files := h.files
  root := h.options.root
  entryRoot := b.entryRoot
  outDir := h.options.outDir
  configPath := (h.compiler.options p).configFile
  compilerOptions := (h.compiler.options p).raw
  bundledPackages := h.options.bundledPackages

/-- Rolls up the entries, if that is asked for. -/
def rollUp (h : Host σ π) (p : π) (b : Build) (types : Path) (emitted : PathMap Text) :
    WorkM σ (List Path × PathMap Text) := do
  if !h.options.rollupTypes then return ([], emitted)
  match h.engine with
  | none => throw (.rollupPrepare types "no rollup engine configured")
  | some engine =>
    let result ← (h.rollup p b engine).run h.options.entries types emitted
    WorkM.phase "rollup output"
    return result

/-- Adds root files and rolls up, if either is asked for. -/
def addRootFiles (h : Host σ π) (p : π) (b : Build) (emitted : PathMap Text) :
    WorkM σ (List Path × PathMap Text) := do
  if !(h.options.insertTypesEntry || h.options.rollupTypes) then return ([], emitted)
  let (types, emitted) ← (h.rootFiles b).insert h.writer emitted
  WorkM.phase "insert index"
  h.rollUp p b types emitted

/-- Writes everything that is recorded. -/
def writeRecorded (h : Host σ π) (p : π) (b : Build) (version : Nat) : WorkM σ Report := do
  let emitted ← h.writer.writeOutputs (h.layout p b) b.outputs.snapshot
  WorkM.phase "write output"
  let (rolledUp, emitted) ← h.addRootFiles p b emitted
  let replicated ← h.writer.replicate emitted (h.options.outDirs.drop 1)
  WorkM.ofExcept h.hooks.afterBuild
  WorkM.phase "finish"
  -- Time is not part of a session, so none has passed.
  WorkM.report (.finished emitted.size 0)
  return ⟨emitted.keys, rolledUp, replicated, version⟩

/-- Flushes the session; there is no report when nothing has changed since the last flush. -/
def writeBundle (h : Host σ π) : SessionM σ π (Option Report) := do
  let b ← SessionM.started
  if b.flushed then return none
  SessionM.setBuild { b with flushed := true }
  SessionM.work (WorkM.report .started)
  h.flushSources (h.compiler.sources (← get).program)
  SessionM.work (WorkM.phase "emit output patch")
  let s ← get
  let b ← SessionM.started
  return some (← SessionM.work (h.writeRecorded s.program b s.version))

end Host

end Typings
