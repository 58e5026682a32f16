import Typings.CommandLine.Arguments
import Typings.Configuration.Reader
import Typings.Event.Console
import Typings.Event
import Typings.Watch.Event

/-!
# Reports of a run

A run reports to people on the error stream or to programs on the output stream.

* `Streams`: what was written to both streams.
* `Reporter`: who is told; `Reporter.ofInvocation` chooses.
* `Failure`: what ended a run, with its causes.

People are shown what the verbosity lets through, with colours and signs as far as the terminal can
show them. Programs are given every event as an object on a line of its own. What is written to the
streams is collected in order, so that a run can be compared with another by what it told.
-/

namespace Typings

/-- What was written to the output stream and to the error stream. -/
structure Streams where
  out : Text := []
  err : Text := []
deriving DecidableEq, Repr, Inhabited

namespace Streams

/-- More on both streams. -/
def append (s t : Streams) : Streams := ⟨s.out ++ t.out, s.err ++ t.err⟩

instance : Append Streams := ⟨append⟩

/-- A line on the output stream. -/
def outLine (t : Text) : Streams := { out := t ++ "\n" }

/-- A line on the error stream. -/
def errLine (t : Text) : Streams := { err := t ++ "\n" }

/-- All of some reports. -/
def all (parts : List Streams) : Streams := parts.foldl append {}

end Streams

/-- Who is told about a run. -/
inductive Reporter where
  /-- People, on the error stream. -/
  | people (c : Console)
  /-- Programs, on the output stream. -/
  | programs

namespace Reporter

/-- How much people are told: what the command line asks for, but not less than configured. -/
def verbosity (g : Given) (configured : Verbosity) : Verbosity :=
  if g.quiet then .quiet
  else match g.verbose with
    | 0 => configured
    | 1 => if configured.level < Verbosity.verbose.level then .verbose else configured
    | _ => .debug

/-- When lines are coloured: the command line can force it either way. -/
def colourMode (g : Given) (configured : ColourMode) : ColourMode :=
  match g.colour with
  | some .always => .always
  | some .never => .never
  | _ => configured

/-- Who is told, by the options of the command line and the configuration. -/
def ofInvocation (g : Given) (c : Configuration) (terminal : Terminal) : Reporter :=
  if g.json then .programs
  else .people
    { verbosity := verbosity g c.verbosity
      colour := terminal.colourEnabled (colourMode g c.colour)
      unicode := terminal.unicode }

/-- Every file that is written is worth a report. -/
def wantsDetails : Reporter → Bool
  | .people c => c.wantsDetails
  | .programs => true

/-- The report of an event. -/
def event (r : Reporter) (e : Event) : Streams :=
  match r with
  | .people c =>
    match c.render e with
    | some t => .errLine t
    | none => {}
  | .programs => { out := jsonLine e.toJson }

/-- The report of some events. -/
def events (r : Reporter) (es : List Event) : Streams := .all (es.map r.event)

/-- The report of an error. -/
def error (r : Reporter) (message : Text) : Streams :=
  match r with
  | .people c => .errLine (c.errorLine message)
  | .programs => { out := jsonLine (noticeJson "error" message) }

/-- A notice that people get however little they want to be told. -/
def notice (t : Text) : Streams := .errLine (Console.tag ++ " " ++ t)

/-- The report of an unknown key of the configuration. -/
def unknownKey (r : Reporter) (k : UnknownKey) : Streams :=
  match r with
  | .people _ => notice k.message
  | .programs => { out := jsonLine (noticeJson "warning" k.message) }

/-- The report of an event of watching. -/
def watchEvent (r : Reporter) (e : WatchEvent) : Streams :=
  match r with
  | .programs => .outLine e.line
  | .people c =>
    match e with
    | .watchStarted root => notice ("watching " ++ root ++ " (Ctrl+C to stop)")
    | .fileChanged path => notice ("changed " ++ path)
    | .error message => .errLine (c.errorLine message)
    | .shutdown => notice "stopped watching"
    | _ => {}

end Reporter

/-! ## Failures -/

/-- What ended a run, with what caused it, and what caused that. -/
structure Failure where
  message : Text
  causes : List Text := []
deriving DecidableEq, Repr

/-- What caused an error: the report of the system or of a reader. -/
def BuildError.causes : BuildError → List Text
  | .files (.system f) => [f.message]
  | .files e => [e.message]
  | .json detail => [detail]
  | _ => []

namespace Failure

/-- An error of the build. -/
def ofError (e : BuildError) : Failure := ⟨e.message, e.causes⟩

/-- An error of the build, with what was being done. -/
def whileDoing (task : Text) (e : BuildError) : Failure := ⟨task, e.message :: e.causes⟩

/-- The causes, one a line; several are numbered. -/
def causeLines : List Text → List Text
  | [c] => ["    " ++ c]
  | cs => (cs.zipIdx).map fun (c, n) => "    " ++ Text.ofNat n ++ ": " ++ c

/-- The report of a failure on the error stream. -/
def report (f : Failure) : Streams :=
  let causes : List Text :=
    if f.causes.isEmpty then [] else "" :: "Caused by:" :: causeLines f.causes
  .all ((("Error: " ++ f.message) :: causes).map .errLine)

end Failure

end Typings
