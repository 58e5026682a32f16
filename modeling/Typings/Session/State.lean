import Typings.Library.RootFiles
import Typings.Resolver
import Typings.Rollup.Engine
import Typings.Session.Options

/-!
# Sessions

A session keeps all that one build needs between its steps.  What it was set up with, its `Host`,
never changes; what it has found out and recorded so far is the `Session`.

* `Host`: the options, the surroundings and the rules of a build.
* `Build`: what a started session works with.
* `Session`, `SessionM`: the state and the steps on it.
* `Host.handles`: which sources a started session takes.

Every step is a function of the state, and what it has done before it fails stays done.  So what is
true of all states that can be reached is shown for each step once.
-/

namespace Typings

/-- What a session is set up with. -/
structure Host (σ π : Type) where
  options : BuildOptions
  files : Files.FileStore σ
  compiler : Compiler σ π
  registry : Registry σ π
  hooks : Hooks := {}
  engine : Option (RollupEngine σ) := none
  /-- Every file that is written is reported. -/
  detailed : Bool := true

/-- What a started session works with. -/
structure Build where
  /-- The outputs recorded so far. -/
  outputs : Accumulator := {}
  /-- The sources whose declarations are still to be made. -/
  pending : PathSet
  /-- Nothing has changed since the last flush. -/
  flushed : Bool := false
  publicRoot : Path
  entryRoot : Path
  steps : Declaration.Steps
  filter : SourceFilter

/-- The state of a session. -/
structure Session (σ π : Type) where
  bench : Workbench σ
  program : π
  /-- How often a changed source was taken. -/
  version : Nat := 0
  /-- There once the session has started. -/
  build : Option Build := none

/-- A step of a session; what it did before it failed stays done. -/
abbrev SessionM (σ π : Type) := EStateM BuildError (Session σ π)

namespace SessionM

variable {σ π : Type}

/-- Work on the bench. -/
def work {α : Type} (op : WorkM σ α) : SessionM σ π α := fun s =>
  match op s.bench with
  | .ok a b => .ok a { s with bench := b }
  | .error e b => .error e { s with bench := b }

/-- Asks the program. -/
def onProgram {α : Type} (op : σ → EStateM BuildError π α) : SessionM σ π α := fun s =>
  match op s.bench.world s.program with
  | .ok a p => .ok a { s with program := p }
  | .error e p => .error e { s with program := p }

/-- The declarations of a source. -/
def emit (c : Compiler σ π) (path : Path) : SessionM σ π (List EmittedFile) :=
  onProgram fun w p =>
    let (files, p) := c.emit w path p
    .ok files p

/-- Reads a source again. -/
def refresh (c : Compiler σ π) (path : Path) : SessionM σ π Bool := fun s =>
  match c.refresh path (s.bench.world, s.program) with
  | .ok b (w, p) => .ok b { s with bench := { s.bench with world := w }, program := p }
  | .error e (w, p) => .error e { s with bench := { s.bench with world := w }, program := p }

/-- What the started session works with. -/
def started : SessionM σ π Build := do
  match (← get).build with
  | some b => return b
  | none => throw .notStarted

/-- Puts back what the session works with. -/
def setBuild (b : Build) : SessionM σ π Unit := modify fun s => { s with build := some b }

end SessionM

/-- The place a source is known by: without a query, folded. -/
def sourceId (p : Path) : Path := Path.normalize ⟨p.text.takeWhile (· != '?')⟩

namespace Host

variable {σ π : Type}

/-- The writer of the main output directory. -/
def writer (h : Host σ π) : Writer σ where
  files := h.files
  hooks := h.hooks
  outDir := h.options.outDir
  strict := h.options.strictOutput
  detailed := h.detailed

/-- Some rule makes declarations for the source. -/
def understands (h : Host σ π) (id : Path) : Bool :=
  h.registry.supports id || ScriptName.isScript id.text

/-- The session takes the source; one that has not started takes none. -/
def handles (h : Host σ π) (s : Session σ π) (path : Path) : Bool :=
  match s.build with
  | some b => b.filter.accepts (sourceId path) && h.understands (sourceId path)
  | none => false

/-- The place that a file of the compiler is recorded at: as it lies below the current directory, so
    below the public root. -/
def emittedKey (h : Host σ π) (p : π) (publicRoot name : Path) : Path :=
  let dir := h.compiler.currentDir p
  publicRoot.resolve (dir.relative (dir.resolve name))

/-- The place that an output of a resolver is recorded at. -/
def resolvedKey (h : Host σ π) (publicRoot path : Path) : Path :=
  let dir := h.options.outDir
  publicRoot.resolve (dir.relative (dir.resolve path))

end Host

end Typings
