import Typings.Json.Printer
import Typings.Rollup.Engine
import Typings.Tool

/-!
# The rollup tool

The tool reads its configuration from a file beside the package's manifest, which is removed when the
tool is done.

* `extractor`: the tool as an engine.

The configuration is removed whether or not the tool succeeds. A tool that does not start could not be
prepared; one that reports a failure, or reports success and leaves no result, has failed.
-/

namespace Typings

namespace RollupRequest

/-- The directory of the configuration: that of the manifest, or the root. -/
def configDir (r : RollupRequest) : Path :=
  match r.packageJson with
  | some p => p.parentDir
  | none => r.root

/-- The file that the tool reads its configuration from. -/
def configFile (r : RollupRequest) : Path :=
  r.configDir.join (temporaryName ".declpack-api-extractor-" ".json")

/-- The arguments of the tool after the command. -/
def arguments (r : RollupRequest) : List Text :=
  let folder : List Text := match r.libFolder with
    | some f => ["--typescript-compiler-folder", f.text]
    | none => []
  let base : List Text := ["run", "--local", "--config", r.configFile.text]
  base ++ folder

end RollupRequest

variable {σ : Type}

/-- Writes the tool's configuration into a directory that is there. -/
def writeConfiguration (files : Files.FileStore σ) (r : RollupRequest) : EStateM BuildError σ Unit :=
  fun w =>
    if !files.isThere w r.configDir then
      .error (.rollupPrepare r.entryPath Files.SystemFault.noEntry.message) w
    else match files.write r.configFile r.configuration.pretty w with
      | .ok _ w => .ok () w
      | .error e w => .error (.rollupPrepare r.entryPath e.message) w

/-- Runs the tool on its configuration and removes that again. -/
def runExtractor (files : Files.FileStore σ) (tools : ToolRunner σ) (command : List Text)
    (program : Text) (leading : List Text) (r : RollupRequest) : EStateM BuildError σ Unit := fun w =>
  let (result, w) := tools.run r.root program (leading ++ r.arguments) w
  let w := match files.remove r.configFile w with
    | .ok _ w => w
    | .error _ w => w
  match result with
  | .error fault => .error (.rollupPrepare r.entryPath (notRun command fault)) w
  | .ok (status, _) =>
    if status == 0 && files.isThere w r.outputPath then .ok () w
    else .error (.rollupFailed r.entryPath) w

/-- The tool as an engine: it has to succeed and to leave its result where it was asked to. -/
def extractor (files : Files.FileStore σ) (tools : ToolRunner σ) (command : List Text) :
    RollupEngine σ where
  run r := match command with
    | [] => throw (.rollupPrepare r.entryPath "empty rollup command")
    | program :: leading => do
      writeConfiguration files r
      runExtractor files tools command program leading r

/-- An engine in a world of which its own is the first part. -/
def RollupEngine.zoom {τ : Type} (e : RollupEngine σ) : RollupEngine (σ × τ) where
  run r := fun (w, t) =>
    match e.run r w with
    | .ok _ w => .ok () (w, t)
    | .error err w => .error err (w, t)

end Typings
