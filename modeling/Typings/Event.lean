import Typings.Json.Printer
import Typings.Path

/-!
# Events of a build

* `Event`: what a build reports while it runs.
* `Event.isWarning`: the events that are shown at any verbosity.
* `Verbosity`: how much is shown.
* `Event.toJson`: an event for programs, an object whose field `event` names its kind; `jsonLine`: one line
  of it.

Events are values: a step of a build leaves them in the order in which they came up, and who is told
decides what to show. A file that is written is an event only where somebody asked for every file.
-/

namespace Typings

/-- What a build reports. -/
inductive Event where
  /-- The declarations of a flush are being made. -/
  | started
  /-- A stage of the work. -/
  | phase (name : Text)
  /-- The compiler complained about declarations. -/
  | diagnostics (count : Nat) (formatted : Text)
  /-- There is no library entry, so every source is one. -/
  | notALibrary
  /-- A file was written. -/
  | fileWritten (path : Path)
  /-- A file was not written, because it lies outside of the output directory. -/
  | outsideOutDir (path : Path)
  /-- A source map was written as it is, because it cannot be read. -/
  | sourceMapFailed (path : Path) (reason : Text)
  /-- Declarations are being rolled up. -/
  | rollupStarted
  /-- The build is done. -/
  | finished (written : Nat) (millis : Nat)
deriving DecidableEq, Repr

/-- Warnings are shown even when little else is. -/
def Event.isWarning : Event → Bool
  | .notALibrary => true
  | .outsideOutDir _ => true
  | .sourceMapFailed _ _ => true
  | .diagnostics _ _ => true
  | _ => false

/-- How much is shown. -/
inductive Verbosity where
  | quiet
  | normal
  | verbose
  | debug
deriving DecidableEq, Repr, Inhabited

/-- More is shown at a higher level. -/
def Verbosity.level : Verbosity → Nat
  | .quiet => 0
  | .normal => 1
  | .verbose => 2
  | .debug => 3

/-- The level from which an event is shown. -/
def Event.verbosity (e : Event) : Verbosity :=
  if e.isWarning then .quiet
  else match e with
    | .started => .verbose
    | .phase _ => .verbose
    | .fileWritten _ => .verbose
    | _ => .normal

/-- An object whose first field names its kind. -/
def taggedObject (kind : Text) (fields : List (Text × Json)) : Json :=
  .object (("event", .string kind) :: fields)

/-- An event as an object. -/
def Event.toJson : Event → Json
  | .started => taggedObject "started" []
  | .phase name => taggedObject "phase" [("name", .string name)]
  | .diagnostics count formatted =>
    taggedObject "diagnostics" [("count", .ofNat count), ("formatted", .string formatted)]
  | .notALibrary => taggedObject "not_a_library" []
  | .fileWritten p => taggedObject "file_written" [("path", .string p.text)]
  | .outsideOutDir p => taggedObject "outside_out_dir" [("path", .string p.text)]
  | .sourceMapFailed p reason =>
    taggedObject "source_map_failed" [("path", .string p.text), ("reason", .string reason)]
  | .rollupStarted => taggedObject "rollup_started" []
  | .finished written millis =>
    taggedObject "finished" [("written", .ofNat written), ("duration_ms", .ofNat millis)]

/-- A message that is no event of the build itself. -/
def noticeJson (kind message : Text) : Json := taggedObject kind [("message", .string message)]

/-- An object as a line of its own. -/
def jsonLine (j : Json) : Text := j.compact ++ "\n"

end Typings
