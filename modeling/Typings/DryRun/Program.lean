import Typings.Compiler.Program
import Typings.Path.Map

/-!
# Programs given by tables

For a dry run the sources and what the compiler makes of them are given up front.

* `TableProgram`: the tables.
* `TableProgram.setSource`, `removeSource`, `setEmits`: changes as an editor would make them.
* `TableProgram.compiler`: answers out of the tables.

Sources of dependencies and emitted files are listed too, and every question for declarations is
counted, so a run shows what was asked for and how often. A change goes by the spelling of a path,
which is how an editor names a file; places are compared when a source is looked up.
-/

namespace Typings.DryRun

/-- A program whose sources and emitted files are listed. -/
structure TableProgram where
  currentDir : Path
  options : CompilerOptions := {}
  sources : List SourceFile := []
  /-- Sources of dependencies. -/
  external : List SourceFile := []
  /-- What is emitted for a source. -/
  emits : List (Path × EmittedFile) := []
  diagnostics : List Diagnostic := []
  /-- How often declarations were asked for. -/
  emitCalls : Nat := 0
deriving Inhabited

namespace TableProgram

/-- The sources by their places; of several at one place the last counts. -/
def files (t : TableProgram) : PathMap SourceFile :=
  PathMap.ofList ((t.sources ++ t.external).map fun f => (f.path, f))

/-- The tables with a source at the end of the list, in place of one of the same spelling. -/
def setSource (t : TableProgram) (path : Path) (text : Text) : TableProgram :=
  { t with sources := t.sources.filter (·.path != path) ++ [⟨path, text⟩] }

/-- The tables without the source of that spelling. -/
def removeSource (t : TableProgram) (path : Path) : TableProgram :=
  { t with sources := t.sources.filter (·.path != path) }

/-- The tables with other emitted files for a source. -/
def setEmits (t : TableProgram) (path : Path) (files : List EmittedFile) : TableProgram :=
  { t with emits := t.emits.filter (·.1 != path) ++ files.map (path, ·) }

/-- What is emitted for a source. -/
def emitted (t : TableProgram) (path : Path) : List EmittedFile :=
  (t.emits.filter (·.1.same path)).map (·.2)

/-- Answers out of the tables. -/
def compiler {σ : Type} : Compiler σ TableProgram where
  source? t p := t.files.get? p
  sources t := t.files.values
  isExternal t f := t.external.any (·.path.same f.path)
  diagnostics := diagnostics
  options := options
  currentDir := currentDir
  emit _ p := modifyGet fun t => (t.emitted p, { t with emitCalls := t.emitCalls + 1 })
  refresh p := fun (w, t) => .ok (t.files.contains p) (w, t)

end TableProgram

end Typings.DryRun
