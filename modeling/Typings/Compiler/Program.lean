import Typings.Compiler.Diagnostic
import Typings.Compiler.Options
import Typings.Error
import Typings.ScriptName

/-!
# Compiled programs

A build looks sources up, asks for their declarations and tells the program when a source has
changed.  Whatever answers that is a `Compiler`.

* `SourceFile`, `EmittedFile`: what goes in and what comes out.
* `Compiler`: the questions a build asks.
* `Compiler.zoom`: the same answers in a larger world.

A build never looks into a program: the type of programs is a parameter, and all that is known of it
is what the questions answer.  Asking for declarations may change the program, since a compiler keeps
what it has worked out; reading a source again may fail and may change the world.  A table of answers
and a compiler that is run as a tool are both compilers in this sense.
-/

namespace Typings

/-- A file of a program. -/
structure SourceFile where
  path : Path
  text : Text
deriving DecidableEq, Repr, Inhabited

/-- The file is a declaration already. -/
def SourceFile.isDeclaration (f : SourceFile) : Bool := ScriptName.isDeclaration f.path.text

/-- The file is a script. -/
def SourceFile.isScript (f : SourceFile) : Bool := ScriptName.isScript f.path.text

/-- A file that the compiler made; its name is seen from the program's current directory. -/
structure EmittedFile where
  name : Path
  text : Text
deriving DecidableEq, Repr, Inhabited

/-- What a build asks about a program `π` in a world `σ`. -/
structure Compiler (σ π : Type) where
  /-- The source at a path. -/
  source? : π → Path → Option SourceFile
  /-- All sources. -/
  sources : π → List SourceFile
  /-- The source belongs to a dependency. -/
  isExternal : π → SourceFile → Bool
  /-- The complaints of the last compilation. -/
  diagnostics : π → List Diagnostic
  /-- The options the program is compiled with. -/
  options : π → CompilerOptions
  /-- The directory that emitted names are seen from. -/
  currentDir : π → Path
  /-- The declarations of a source. -/
  emit : σ → Path → StateM π (List EmittedFile)
  /-- Reads a source again; tells whether the program has changed. -/
  refresh : Path → EStateM BuildError (σ × π) Bool

namespace Compiler

variable {σ τ π : Type}

/-- The source produces a declaration of its own. -/
def isEmitted (c : Compiler σ π) (p : π) (f : SourceFile) : Bool :=
  ScriptName.isEmitted f.path.text (c.options p).skipJavaScript && !c.isExternal p f

/-- The compiler in a world of which its own is the first part. -/
def zoom (c : Compiler σ π) : Compiler (σ × τ) π :=
  { c with
    emit := fun w => c.emit w.1
    refresh := fun path ((w, t), p) =>
      match c.refresh path (w, p) with
      | .ok b (w, p) => .ok b ((w, t), p)
      | .error e (w, p) => .error e ((w, t), p) }

end Compiler

end Typings
