import Typings.Compiler.Diagnostic
import Typings.Error
import Typings.Output.Accumulator

/-!
# Hooks of a build

The owner of a build can change or stop single writes, and end a build after its diagnostics or its
work.

* `WriteDecision`: what becomes of one write.
* `Hooks`: the places where the owner is asked.

A decision keeps a file, drops it, or gives it another path, another content or both. The writer asks
before it checks where the file lies, so a path that was changed is held to the output directory like
any other. Without an owner every file is kept and nothing ends the build.
-/

namespace Typings

/-- What becomes of one write. -/
inductive WriteDecision where
  | keep
  | skip
  /-- Another path or another content. -/
  | change (path : Option Path) (content : Option Text)
deriving DecidableEq, Repr, Inhabited

/-- The file that is written, if one is. -/
def WriteDecision.apply (d : WriteDecision) (f : OutputFile) : Option OutputFile :=
  match d with
  | .keep => some f
  | .skip => none
  | .change path content => some ⟨path.getD f.path, content.getD f.content⟩

/-- Where the owner of a build is asked. -/
structure Hooks where
  beforeWrite : OutputFile → WriteDecision := fun _ => .keep
  afterDiagnostics : List Diagnostic → Except BuildError Unit := fun _ => .ok ()
  afterBuild : Except BuildError Unit := .ok ()

end Typings
