import Typings.CommandLine.Reporter
import Typings.Configuration
import Typings.Rollup.Extractor
import Typings.Compiler.Staged
import Typings.Watch

/-!
# The command line

Both commands load the configuration of a project, find its sources and run a session; one builds
once, the other goes on to watch.

* `Machine`: what a command runs on.
* `Machine.prepare`: a session for a command line.
* `Machine.build`, `Machine.watch`: the commands.
* `Machine.execute`: a whole run.

A run is a step on what was reported so far and on the world, so that what was reported before a
failure stays reported. A command line that cannot be understood ends with the code 2, a command that
fails with the code 1. Nothing here touches the machine itself: it is given as a store of files, a
runner of tools and the environment.
-/

namespace Typings

/-- The name and the version of this program. -/
def versionLine : Text := "declpack 0.4.1"

/-- What a command runs on. -/
structure Machine (σ : Type) where
  files : Files.FileStore σ
  tools : ToolRunner σ
  environment : Environment
  currentDir : Path
  /-- The error stream is shown on a terminal. -/
  isTty : Bool := false

/-- The end of a run. -/
structure Outcome (σ : Type) where
  code : Nat
  streams : Streams
  world : σ

/-- A session that is set up for a command. -/
structure Prepared (σ : Type) where
  host : Host σ StagedProgram
  session : Session σ StagedProgram
  reporter : Reporter

namespace Machine

variable {σ : Type}

/-- A step of a run; what it reported before it failed stays reported. -/
abbrev RunM (σ : Type) := EStateM Failure (Streams × σ)

/-- Reports something. -/
def say (s : Streams) : RunM σ Unit := modify fun (t, w) => (t ++ s, w)

/-- What was found out, or the failure. -/
def check {α : Type} (r : Except BuildError α) : RunM σ α :=
  match r with
  | .ok a => pure a
  | .error e => throw (.ofError e)

/-- The directory for temporary files. -/
def temporaryDir (m : Machine σ) : Path :=
  match m.environment.lookup "TMPDIR".toList with
  | some dir => ⟨dir⟩
  | none => "/tmp"

/-- How programs are compiled. -/
def compiler (m : Machine σ) : StagedCompiler σ := ⟨m.files, m.tools, m.temporaryDir⟩

/-- The root of the project, seen from the current directory. -/
def root (m : Machine σ) (g : Given) : Path :=
  match g.root with
  | some p => m.currentDir.resolve p
  | none => m.currentDir

/-- The file of the configuration. -/
def configPath (m : Machine σ) (g : Given) : Path :=
  match g.config with
  | some p => m.currentDir.resolve p
  | none => (m.root g).join Configuration.fileName

/-- The configuration with what the environment and the command line replace. -/
def configure (m : Machine σ) (g : Given) (c : Configuration) : Configuration :=
  let c := c.override m.environment
  let outDir : Option OneOrMany :=
    if g.outDirs.isEmpty then c.outDir
    else some (.many (g.outDirs.map fun d => (m.currentDir.resolve d).toSlash))
  let root := c.root <|> g.root.map fun _ => (m.configPath g).parentDir.relative (m.root g)
  { c with outDir, rollupTypes := c.rollupTypes || g.rollup, root }

/-- The configuration of the compiler: the configured file, or the one nearest to the root. -/
def loadTsConfig (m : Machine σ) (c : Configuration) (root : Path) : RunM σ (Option TsConfig) := do
  let (_, w) ← get
  match (c.tsConfig.map root.resolve) <|> TsConfig.find? m.files w root with
  | none => return none
  | some path =>
    match TsConfig.load m.files w path with
    | .ok t => return some t
    | .error e => throw (.whileDoing ("failed to load " ++ path.text) e)

/-- Finds the sources and runs the compiler for the first time. -/
def createProgram (m : Machine σ) (setup : CompilerSetup) : RunM σ StagedProgram := fun (s, w) =>
  match m.compiler.create setup w with
  | .ok p w => .ok p (s, w)
  | .error e w => .error (.ofError e) (s, w)

/-- A session for a command line. -/
def prepare (m : Machine σ) (g : Given) : RunM σ (Prepared σ) := do
  let (_, w) ← get
  let configDir := (m.configPath g).parentDir
  let (c, unknown) ← check (Configuration.load m.files w (m.configPath g))
  let c := m.configure g c
  let reporter := Reporter.ofInvocation g c (Terminal.detect m.environment m.isTty)
  say (.all (unknown.map reporter.unknownKey))
  let tsConfig ← m.loadTsConfig c (c.projectRoot configDir)
  let options ← check (c.buildOptions configDir tsConfig (m.files.isDirectory w))
  let filter ← check (SourceFilter.ofGlobs options.root options.included options.excluded)
  let program ← m.createProgram
    { command := c.compilerCommand
      root := options.root
      config := tsConfig
      filter := filter
      extraRoots := options.entries.map (·.source)
      extensions := resolvedExtensions }
  let (_, w) ← get
  return {
    host :=
      { options := options
        files := m.files
        compiler := m.compiler.compiler
        registry := .withBuiltIns []
        engine := some (extractor m.files m.tools c.rollup.command)
        detailed := reporter.wantsDetails }
    session := .create w program
    reporter := reporter }

/-- Runs a step of a session and reports its events. -/
def step {α : Type} (reporter : Reporter) (op : SessionM σ StagedProgram α)
    (s : Session σ StagedProgram) :
    RunM σ (Except BuildError α × Session σ StagedProgram) := do
  let (result, s) : Except BuildError α × Session σ StagedProgram := match op s with
    | .ok a s => (.ok a, s)
    | .error e s => (.error e, s)
  say (reporter.events s.bench.events)
  modify fun (t, _) => (t, s.bench.world)
  return (result, { s with bench := { s.bench with events := [] } })

/-- Builds once. -/
def build (m : Machine σ) (g : Given) : RunM σ Unit := do
  let p ← m.prepare g
  let (result, _) ← step p.reporter (p.host.firstBuild *> p.host.writeBundle) p.session
  if let .error e := result then
    say (p.reporter.error e.message)
    throw (.ofError e)

/-- Builds, and ends where waiting for changes would begin. -/
def watch (m : Machine σ) (g : Given) : RunM σ Unit := do
  let p ← m.prepare g
  let tell (e : WatchEvent) : RunM σ Unit := say (p.reporter.watchEvent e)
  tell (.watchStarted p.host.options.root.text)
  let (result, s) ← step p.reporter p.host.firstBuild p.session
  if let .error e := result then throw (.ofError e)
  tell .rebuildStarted
  let (result, _) ← step p.reporter p.host.writeBundle s
  tell (match result with
    | .ok (some report) => .rebuildComplete report.fileCount 0
    | .ok none => .rebuildComplete 0 0
    | .error e => .error e.message)
  tell .shutdown

/-- Runs a command. -/
def run (m : Machine σ) (i : Invocation) : RunM σ Unit :=
  match i.command with
  | .build => m.build i.options
  | .watch => m.watch i.options

/-- A whole run.  A command line that cannot be understood ends it with another code than a command
    that fails. -/
def execute (m : Machine σ) (args : List Text) (world : σ) : Outcome σ :=
  match Invocation.ofArguments args with
  | .error .help => ⟨0, {}, world⟩
  | .error .version => ⟨0, .outLine versionLine, world⟩
  | .error .usage => ⟨2, {}, world⟩
  | .ok i =>
    match m.run i ({}, world) with
    | .ok _ (s, w) => ⟨0, s, w⟩
    | .error f (s, w) => ⟨1, s ++ f.report, w⟩

end Machine

end Typings
