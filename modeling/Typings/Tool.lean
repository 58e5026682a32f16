import Typings.Files.Error

/-!
# Tools of a build

The compiler and the rollup tool are programs of their own.

* `ToolRunner`: how a build runs them.
* `temporaryName`: the names of files that only live while a tool runs.

What a tool does to the world is part of its result, and so is that it did not start. A build looks at
the status and at the output and never at how they came about, so the tools of a test and those of a
machine are used in the same way.
-/

namespace Typings

/-- How a build runs its tools in a world `σ`: in a directory, a program with its arguments.  The
    result is the status and what was written, or why the program did not start. -/
structure ToolRunner (σ : Type) where
  run : (dir : Path) → (program : Text) → (args : List Text) → σ →
    Except Files.SystemFault (Nat × Text) × σ

/-- Why a command line did not start. -/
def notRun (command : List Text) (fault : Files.SystemFault) : Text :=
  "failed to run '" ++ List.intercalate " " command ++ "': " ++ fault.message

/-- The name of a temporary file; what makes it unique is left open. -/
def temporaryName (front back : Text) : Path := ⟨front ++ "XXXXXX" ++ back⟩

end Typings
