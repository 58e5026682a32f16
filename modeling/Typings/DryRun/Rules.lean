import Typings.Output.Hooks
import Typings.Resolver

/-!
# Scripted hooks and resolvers

* `WriteRule`, `HookScript`: decisions about writes by path or content.
* `ResolverScript`: a resolver with fixed outputs.

The first rule for a file counts, and a file without one is written as it is. A hook that complains
ends the build, and a resolver may be told to fail. They stand for the rules that the owner of a build
would write, so that a build with such rules can be run from a description alone.
-/

namespace Typings.DryRun

/-- A decision about the writes that a path or a piece of content selects. -/
structure WriteRule where
  path : Option Path := none
  contains : Option Text := none
  decision : WriteDecision := .keep
deriving Inhabited

/-- The rule is for the file. -/
def WriteRule.selects (r : WriteRule) (f : OutputFile) : Bool :=
  r.path.all (·.same f.path) && r.contains.all fun t => f.content.hasInfix t

/-- Hooks that follow a script. -/
structure HookScript where
  rules : List WriteRule := []
  /-- The complaint after the diagnostics, if there is one. -/
  diagnosticError : Option Text := none
  /-- The complaint after the build, if there is one. -/
  buildError : Option Text := none
deriving Inhabited

/-- A complaint ends the build. -/
def complain : Option Text → Except BuildError Unit
  | some t => .error (.compiler t)
  | none => .ok ()

/-- The hooks: the first rule for a file counts. -/
def HookScript.hooks (s : HookScript) : Hooks where
  beforeWrite f := match s.rules.find? (·.selects f) with
    | some r => r.decision
    | none => .keep
  afterDiagnostics _ := complain s.diagnosticError
  afterBuild := complain s.buildError

/-- A resolver with fixed outputs, or one that always fails. -/
structure ResolverScript where
  name : Text
  extension : Text
  outputs : List OutputFile := []
  error : Option Text := none
deriving Inhabited

/-- The resolver. -/
def ResolverScript.resolver {σ π : Type} (s : ResolverScript) : Resolver σ π where
  name := s.name
  supports := hasExtension s.extension
  outputs _ _ _ := match s.error with
    | some t => throw (.compiler t)
    | none => return s.outputs

end Typings.DryRun
