import Typings.CommandLine
import Typings.Shell

/-!
# The program

The files of the project are read into a `Disk`, the command runs on that, and what it changed is
written back.  The commands of the tools are run by the interpreter of this library.

This is the only module with effects of its own.  What lies below the root of the project and below
the directory of its configuration is read before the command runs, so a run is a function of what was
read, and a file that has no text is left alone.
-/

namespace Typings

/-- The environment variables that a run looks at. -/
def environmentKeys : List Text :=
  let settings : List Text := ["DECLPACK_OUT_DIR", "DECLPACK_ROLLUP_TYPES", "DECLPACK_STRICT_OUTPUT",
    "DECLPACK_VERBOSITY", "TERM", "NO_COLOR", "TMPDIR"]
  settings ++ automationKeys

/-- The values of the variables that are set. -/
def readEnvironment : IO Environment :=
  environmentKeys.filterMapM fun key => do
    let value ← IO.getEnv key.toString
    return value.map fun v => (key, v.toList)

/-- The text of a file; none for what is no file or has no text. -/
def readText? (path : String) : IO (Option Text) := do
  try
    let content ← IO.FS.readFile path
    return some content.toList
  catch _ => return none

/-- The files below a directory that have a text. -/
def readTree (dir : Path) : IO (List (Path × Text)) := do
  try
    let top ← IO.FS.realPath dir.toString
    let found ← top.walkDir
    found.toList.filterMapM fun p => do
      return (← readText? p.toString).map fun t => (⟨p.toString.toList⟩, t)
  catch _ => return []

/-- The compiler's configuration files in the directories above one. -/
def readAbove (dir : Path) : IO (List (Path × Text)) :=
  dir.ancestors.filterMapM fun d => do
    let file := d.join ⟨TsConfig.fileName⟩
    return (← readText? file.toString).map (file, ·)

/-- Writes the files that a run has made or changed, but those in a directory that only lives as long
    as the run, and removes those that it has removed. -/
def writeChanges (skipped : Path) (before after : PathMap Text) : IO Unit := do
  for (path, content) in after.entries do
    if !path.isWithin skipped && before.get? path != some content then
      IO.FS.createDirAll path.parentDir.toString
      IO.FS.writeFile path.toString content.toString
  for path in before.keys do
    if !after.contains path then IO.FS.removeFile path.toString

/-- Runs a command line on the files around it; gives the exit code. -/
def runCommandLine (args : List String) : IO UInt32 := do
  let args := args.map String.toList
  let currentDir : Path := ⟨(← IO.currentDir).toString.toList⟩
  let machine : Machine Files.Disk :=
    { files := Files.Disk.store
      tools := shellTools
      environment := ← readEnvironment
      currentDir := currentDir
      isTty := ← (← IO.getStderr).isTty }
  let roots := match Invocation.ofArguments args with
    | .ok i => [machine.root i.options, (machine.configPath i.options).parentDir]
    | .error _ => []
  let trees ← (roots.eraseDups).flatMapM readTree
  let above ← roots.flatMapM readAbove
  let disk := { ({} : Files.Disk).seed [currentDir, machine.temporaryDir] (above ++ trees) with
    currentDir := currentDir }
  let outcome := machine.execute args disk
  writeChanges machine.compiler.staging disk.files outcome.world.files
  (← IO.getStdout).putStr outcome.streams.out.toString
  (← IO.getStderr).putStr outcome.streams.err.toString
  return outcome.code.toUInt32

end Typings

/-- Runs the command line. -/
def main (args : List String) : IO UInt32 := Typings.runCommandLine args
