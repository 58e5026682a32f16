import Typings.Event
import Typings.Manifest
import Typings.Output.Hooks
import Typings.Output.Layout

/-!
# Writing outputs

Every file of a build goes through one writer, which asks the hook, keeps to the output directory and
reports what it wrote.  Files are written independently: one that fails stops none of the others, and
the first failure in the order of the files is the one that is told.

* `Workbench`, `WorkM`: what writing works on.
* `runAll`: independent tasks.
* `Writer.write`: one file.
* `Writer.writeOutputs`: all recorded outputs.
* `Writer.replicate`: copies in further directories.

A write that is refused by the hook or lies outside of the output directory is no failure, and leaves
nothing behind but a warning for the second.  `Proofs.Output.Writes` and `Proofs.Output.Parallel` say
what a flush leaves behind, and how far that depends on the order of the writes.
-/

namespace Typings

open Files (FileStore StoreM)

/-- What writing works on: the world with its files, the manifests seen in it, and the events so
    far. -/
structure Workbench (σ : Type) where
  world : σ
  manifests : ManifestCache := {}
  events : List Event := []

/-- Work that can fail; what was done before stays done. -/
abbrev WorkM (σ : Type) := EStateM BuildError (Workbench σ)

variable {σ : Type}

namespace WorkM

/-- Reports an event. -/
def report (e : Event) : WorkM σ Unit := modify fun b => { b with events := b.events ++ [e] }

/-- Reports some events. -/
def reportAll (es : List Event) : WorkM σ Unit := modify fun b => { b with events := b.events ++ es }

/-- Reports a stage of the work. -/
def phase (name : Text) : WorkM σ Unit := report (.phase name)

/-- The world as it is. -/
def world : WorkM σ σ := do return (← get).world

/-- An operation on the files. -/
def files {α : Type} (op : StoreM σ α) : WorkM σ α := fun b =>
  match op b.world with
  | .ok a w => .ok a { b with world := w }
  | .error e w => .error (.files e) { b with world := w }

/-- Work on the world that reports nothing. -/
def onWorld {α : Type} (op : EStateM BuildError σ α) : WorkM σ α := fun b =>
  match op b.world with
  | .ok a w => .ok a { b with world := w }
  | .error e w => .error e { b with world := w }

/-- A result that is there already. -/
def ofExcept {α : Type} : Except BuildError α → WorkM σ α
  | .ok a => pure a
  | .error e => throw e

/-- Runs a task for every item.  All of them run; then the first failure counts. -/
def runAll {α β : Type} (task : α → WorkM σ β) : List α → WorkM σ (List β)
  | [] => pure []
  | a :: rest => fun b =>
    match task a b with
    | .ok x b =>
      match runAll task rest b with
      | .ok xs b => .ok (x :: xs) b
      | .error e b => .error e b
    | .error e b =>
      match runAll task rest b with
      | .ok _ b => .error e b
      | .error _ b => .error e b

end WorkM

/-- How files are written. -/
structure Writer (σ : Type) where
  files : FileStore σ
  hooks : Hooks
  outDir : Path
  /-- Nothing is written outside of the output directory. -/
  strict : Bool
  /-- Every file that is written is reported. -/
  detailed : Bool

namespace Writer

/-- The directory of a file may be written to. -/
def allows (w : Writer σ) (path : Path) : Bool := !w.strict || path.parentDir.isWithin w.outDir

/-- Puts a file where it belongs, and reports it. -/
def put (w : Writer σ) (f : OutputFile) : WorkM σ Unit := do
  let dir := f.path.parentDir
  if !w.files.isThere (← WorkM.world) dir then WorkM.files (w.files.createDirs dir)
  WorkM.files (w.files.write f.path f.content)
  if w.detailed then WorkM.report (.fileWritten f.path)

/-- Writes one file; gives it as it was written, or nothing if it was not. -/
def write (w : Writer σ) (f : OutputFile) : WorkM σ (Option OutputFile) := do
  match (w.hooks.beforeWrite f).apply f with
  | none => return none
  | some f =>
    let f := { f with path := f.path.normalize }
    if w.allows f.path then
      w.put f
      return some f
    else
      WorkM.report (.outsideOutDir f.path)
      return none

/-- Prepares and writes one recorded output. -/
def writeOutput (w : Writer σ) (layout : Layout) (o : OutputFile) : WorkM σ (Option OutputFile) := do
  let (f, warnings) := layout.prepare o.path o.content
  WorkM.reportAll warnings
  w.write f

/-- The written files by their places. -/
def byPlace (written : List (Option OutputFile)) : PathMap Text :=
  PathMap.ofList ((written.filterMap id).map fun f => (f.path, f.content))

/-- Writes all recorded outputs; gives what was written. -/
def writeOutputs (w : Writer σ) (layout : Layout) (outputs : List OutputFile) :
    WorkM σ (PathMap Text) := do
  return byPlace (← WorkM.runAll (w.writeOutput layout) outputs)

/-! ## Copies -/

/-- The content of a copy: the sources of a map are seen from where the copy lies. -/
def copyContent (f : OutputFile) (target : Path) : Text × List Event :=
  if f.path.isSourceMap && !f.path.parentDir.same target.parentDir then
    match rebaseSources? f.content f.path.parentDir target.parentDir with
    | some moved => (moved, [])
    | none => (f.content, [.sourceMapFailed target Layout.unreadableMap])
  else (f.content, [])

/-- Copies a file to the same place below another directory. -/
def copyTo (w : Writer σ) (f : OutputFile) (dir : Path) : WorkM σ (Option Path) := do
  let target := dir.resolve (w.outDir.relative f.path)
  let (content, warnings) := copyContent f target
  WorkM.reportAll warnings
  let written ← { w with outDir := dir }.write ⟨target, content⟩
  return written.map (·.path)

/-- Copies a file to some directories, one after the other. -/
def copyToAll (w : Writer σ) (f : OutputFile) : List Path → WorkM σ (List Path)
  | [] => return []
  | dir :: dirs => do
    let copy ← w.copyTo f dir
    return copy.toList ++ (← w.copyToAll f dirs)

/-- Copies what was written to further directories; gives the copies. -/
def replicate (w : Writer σ) (emitted : PathMap Text) (dirs : List Path) : WorkM σ (List Path) := do
  if dirs.isEmpty then return []
  let copies ← WorkM.runAll (fun (p, t) => w.copyToAll ⟨p, t⟩ dirs) emitted.entries
  return copies.flatten

end Writer

end Typings
