import Typings.Rollup.Engine

/-!
# Scripted rollup tools

For a dry run the tool that rolls up entries does what it is told, and every request is kept.

* `EngineScript`: what the tool does.
* `EngineScript.engine`: the tool; the requests it has had stand beside the world.

A script may let every request succeed, do nothing, fail or refuse to prepare, and may single out one
request that fails. So the ways in which a rollup can end are brought about without a tool, and what
the tool was asked for can be read afterwards.
-/

namespace Typings.DryRun

/-- What a scripted tool does with a request. -/
inductive EngineMode where
  /-- Writes a line in the place of the result. -/
  | write
  /-- Does nothing. -/
  | idle
  /-- Fails. -/
  | fail
  /-- Cannot be prepared. -/
  | unprepared
deriving DecidableEq, Repr, Inhabited

/-- A scripted tool. -/
structure EngineScript where
  mode : EngineMode
  /-- The request that fails in any case, counted from zero. -/
  failAt : Option Nat := none
deriving Inhabited

namespace EngineScript

/-- What the tool does with a request after `earlier` others. -/
def act {σ : Type} (s : EngineScript) (files : Files.FileStore σ) (earlier : Nat)
    (r : RollupRequest) : EStateM BuildError σ Unit :=
  if s.mode == .fail || s.failAt == some earlier then throw (.rollupFailed r.entryPath)
  else match s.mode with
    | .unprepared => throw (.rollupPrepare r.entryPath "no tool")
    | .write => fun w =>
      match files.write r.outputPath ("// rolled up from " ++ r.entryPath.text ++ "\n") w with
      | .ok _ w => .ok () w
      | .error e w => .error (.files e) w
    | _ => pure ()

/-- The tool; it keeps the requests it has had. -/
def engine {σ : Type} (s : EngineScript) (files : Files.FileStore σ) :
    RollupEngine (σ × List RollupRequest) where
  run r := fun (w, log) =>
    match s.act files log.length r w with
    | .ok _ w => .ok () (w, log ++ [r])
    | .error e w => .error e (w, log ++ [r])

end EngineScript

end Typings.DryRun
