import Typings.Library.Index
import Typings.Output.Writer
import Typings.Rollup.Request

/-!
# Rolling up the entries

Each entry's declarations are rolled up into one file; then every other file of the flush is removed,
with the directories that have become empty.

* `RollupEngine`: the tool that rolls up one entry.
* `Rollup.run`: all entries, and what is left in the end.

For a single entry the target is the package's types, for several each has a target of its own. The
tool is asked for one target after the other, and the first failure ends the rollup. What is left over
is removed by the path it was written to. `Proofs.Rollup.Cleanup` says which files stay.
-/

namespace Typings

/-- The tool that rolls up one entry. -/
structure RollupEngine (σ : Type) where
  run : RollupRequest → EStateM BuildError σ Unit

/-- What the entries are rolled up with. -/
structure Rollup (σ : Type) where
  engine : RollupEngine σ
  files : Files.FileStore σ
  root : Path
  entryRoot : Path
  outDir : Path
  /-- The compiler's configuration. -/
  configPath : Option Path
  compilerOptions : Json
  bundledPackages : List Text

namespace Rollup

variable {σ : Type}

/-- Where a package keeps its compiler. -/
def compilerFolder : Path := "node_modules/typescript"

/-- The compiler that the tool shall use: the project's own, or that of the entry root. -/
def libFolder (r : Rollup σ) (world : σ) : Option Path :=
  let here := r.root.join compilerFolder
  let there := r.entryRoot.join compilerFolder
  if r.files.isThere world here then some here
  else if !r.root.same r.entryRoot && r.files.isThere world there then some there
  else none

/-- The declarations that are rolled up: the package's types for a single entry, a file for each of
    several. -/
def targets (r : Rollup σ) (entries : List Entry) (types : Path) : List Path :=
  if entries.length > 1 then entries.map fun e => r.outDir.join ⟨e.declarationFileName⟩
  else [types]

/-- What the tool is asked for about an entry. -/
def request (r : Rollup σ) (libFolder packageJson : Option Path) (entryPath : Path) :
    RollupRequest where
  root := r.root
  configPath := r.configPath
  compilerOptions := r.compilerOptions
  outDir := r.outDir
  entryPath := entryPath
  fileName := match entryPath.fileName? with
    | some name => ScriptName.declarationName name
    | none => []
  libFolder := libFolder
  packageJson := packageJson
  bundledPackages := r.bundledPackages

/-- The manifest of the package. -/
def packageJson (r : Rollup σ) : WorkM σ (Option Path) := do
  let bench ← get
  let (found, manifests) := bench.manifests.find (r.files.isThere bench.world) r.root
  set { bench with manifests }
  return found

/-- Rolls up some targets; gives the results, and the files written before that are left over. -/
def runTargets (r : Rollup σ) (libFolder : Option Path) (emitted : PathMap Text) :
    List Path → WorkM σ (List Path × PathMap Text)
  | [] => return ([], emitted)
  | target :: rest => do
    let request := r.request libFolder (← r.packageJson) target
    WorkM.onWorld (r.engine.run request)
    let output := request.outputPath
    let (outputs, emitted) ← r.runTargets libFolder ((emitted.erase target).erase output) rest
    return (output :: outputs, emitted)

/-- The texts of some files. -/
def readAll (r : Rollup σ) (world : σ) : List Path → Except BuildError (List (Path × Text))
  | [] => .ok []
  | p :: ps => do
    let text ← (r.files.read world p).mapError .files
    return (p, text) :: (← r.readAll world ps)

/-- Rolls up all entries and removes what is left over; gives the results, and the files with their
    texts. -/
def run (r : Rollup σ) (entries : List Entry) (types : Path) (emitted : PathMap Text) :
    WorkM σ (List Path × PathMap Text) := do
  WorkM.report .rollupStarted
  let libFolder := r.libFolder (← WorkM.world)
  let (outputs, stale) ← r.runTargets libFolder emitted (r.targets entries types)
  let _ ← WorkM.runAll (fun p => WorkM.files (r.files.remove p)) stale.keys
  let _ ← WorkM.files (r.files.prune r.outDir)
  let texts ← WorkM.ofExcept (r.readAll (← WorkM.world) outputs)
  return (outputs, PathMap.ofList texts)

end Rollup

end Typings
