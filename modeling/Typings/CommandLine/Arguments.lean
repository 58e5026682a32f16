import Typings.Configuration.Basic
import Typings.Path

/-!
# Arguments

A command line is options, a command, and more options.  Options of every command may stand on either
side of it; where both sides give one, the side of the command counts.

* `Given`: the options on one side.
* `Stop`: why a command line asks for nothing to be run.
* `Invocation`: the command to run, with its options.
* `Invocation.ofArguments`: the command of a command line.

The reader goes through the arguments once.  A flag that is not known, a value that is missing and an
option that is given again where it may not be stop it; a request for help or for the version stops it
where it stands.
-/

namespace Typings

/-- Options without a value. -/
inductive Switch where
  | json
  | verbose
  | quiet
  | rollup
  | help
  | version
deriving DecidableEq, Repr

/-- Options with a value. -/
inductive Setting where
  | colour
  | config
  | root
  | outDir
deriving DecidableEq, Repr

/-- An option. -/
inductive Flag where
  | switch (s : Switch)
  | setting (s : Setting)
deriving DecidableEq, Repr

/-- The side of a command line: in front of the command, or after it. -/
inductive Side where
  | front
  | build
  | watch
deriving DecidableEq, Repr

/-- Why a command line asks for nothing to be run. -/
inductive Stop where
  | help
  | version
  /-- The command line cannot be understood. -/
  | usage
deriving DecidableEq, Repr

/-- The options on one side of a command line. -/
structure Given where
  json : Bool := false
  /-- How often more was asked for. -/
  verbose : Nat := 0
  quiet : Bool := false
  rollup : Bool := false
  colour : Option ColourMode := none
  config : Option Path := none
  root : Option Path := none
  outDirs : List Path := []
deriving DecidableEq, Repr

/-! ## Names -/

namespace Flag

/-- The option with a long name. -/
def long? (side : Side) (name : Text) : Option Flag :=
  match name.toString with
  | "json" => some (.switch .json)
  | "verbose" => some (.switch .verbose)
  | "quiet" => some (.switch .quiet)
  | "help" => some (.switch .help)
  | "color" => some (.setting .colour)
  | "config" => some (.setting .config)
  | "root" => some (.setting .root)
  | "version" => if side == .front then some (.switch .version) else none
  | "rollup" => if side == .build then some (.switch .rollup) else none
  | "out-dir" => if side == .front then none else some (.setting .outDir)
  | _ => none

/-- The option with a name of one letter. -/
def short? (side : Side) : Char → Option Flag
  | 'v' => some (.switch .verbose)
  | 'q' => some (.switch .quiet)
  | 'h' => some (.switch .help)
  | 'V' => if side == .front then some (.switch .version) else none
  | 'o' => if side == .front then none else some (.setting .outDir)
  | _ => none

end Flag

/-! ## One side -/

namespace Given

/-- One more switch; only `verbose` may be given again. -/
def turnOn (g : Given) : Switch → Except Stop Given
  | .json => if g.json then .error .usage else .ok { g with json := true }
  | .verbose => .ok { g with verbose := g.verbose + 1 }
  | .quiet => if g.quiet then .error .usage else .ok { g with quiet := true }
  | .rollup => if g.rollup then .error .usage else .ok { g with rollup := true }
  | .help => .error .help
  | .version => .error .version

/-- A path is not empty. -/
def path (value : Text) : Except Stop Path :=
  if value.isEmpty then .error .usage else .ok ⟨value⟩

/-- One more setting; only `outDir` may be given again. -/
def put (g : Given) (s : Setting) (value : Text) : Except Stop Given :=
  match s with
  | .colour =>
    match g.colour, ColourMode.ofName? value with
    | none, some mode => .ok { g with colour := some mode }
    | _, _ => .error .usage
  | .config => do
    if g.config.isSome then throw .usage
    return { g with config := some (← path value) }
  | .root => do
    if g.root.isSome then throw .usage
    return { g with root := some (← path value) }
  | .outDir => do return { g with outDirs := g.outDirs ++ [← path value] }

/-- The options on both sides of the command together. -/
def merge (front back : Given) : Given where
  json := front.json || back.json
  verbose := if back.verbose == 0 then front.verbose else back.verbose
  quiet := front.quiet || back.quiet
  rollup := back.rollup
  colour := back.colour <|> front.colour
  config := back.config <|> front.config
  root := back.root <|> front.root
  outDirs := back.outDirs

end Given

/-- A side as far as it is read.  A value is only looked at when the next option comes, or when all is
    read. -/
structure Reading where
  given : Given := {}
  /-- The setting that was named last, and its value once it has come. -/
  waiting : Option (Setting × Option Text) := none

namespace Reading

/-- The options after the last value was looked at. -/
def settle (r : Reading) : Except Stop Given :=
  match r.waiting with
  | none => .ok r.given
  | some (s, some value) => r.given.put s value
  | some (_, none) => .error .usage

/-- One more switch. -/
def turnOn (r : Reading) (s : Switch) : Except Stop Reading := do
  return { given := ← (← r.settle).turnOn s }

/-- One more setting; its value stands in the same argument, or is the next one. -/
def name (r : Reading) (s : Setting) (value : Option Text) : Except Stop Reading := do
  let g ← r.settle
  match value with
  | some v => return { given := ← g.put s v }
  | none => return { given := g, waiting := some (s, none) }

/-- A long option after its dashes. -/
def long (side : Side) (r : Reading) (t : Text) : Except Stop Reading :=
  let (name, value) := match Text.cutFirst? '=' t with
    | some (name, value) => (name, some value)
    | none => (t, none)
  match Flag.long? side name, value with
  | some (.switch s), none => r.turnOn s
  | some (.setting s), value => r.name s value
  | _, _ => .error .usage

/-- Short options after their dash; what follows the letter of a setting is its value. -/
def short (side : Side) : Reading → Text → Except Stop Reading
  | r, [] => .ok r
  | r, c :: t =>
    match Flag.short? side c with
    | some (.switch s) => do short side (← r.turnOn s) t
    | some (.setting s) =>
      r.name s (if t.isEmpty then none else some ((List.isPrefixOf? ['='] t).getD t))
    | none => .error .usage

/-- Reads a side up to a command; with the command and what follows it. -/
def side (s : Side) (commands : List Text) :
    Reading → List Text → Except Stop (Reading × Option (Text × List Text))
  | r, [] => .ok (r, none)
  | r, arg :: rest =>
    match arg with
    | ['-', '-'] => if rest.isEmpty then .ok (r, none) else .error .usage
    | '-' :: '-' :: t => do side s commands (← r.long s t) rest
    | '-' :: c :: t => do side s commands (← r.short s (c :: t)) rest
    | word =>
      match r.waiting with
      | some (setting, none) => side s commands { r with waiting := some (setting, some word) } rest
      | _ => if commands.contains word then .ok (r, some (word, rest)) else .error .usage

/-- The options of a side that is read; what is quiet cannot be verbose. -/
def finish (r : Reading) : Except Stop Given := do
  let g ← r.settle
  if g.quiet && 0 < g.verbose then throw .usage
  return g

end Reading

/-! ## Both sides -/

/-- A command. -/
inductive Command where
  | build
  | watch
deriving DecidableEq, Repr

/-- The command to run, with its options. -/
structure Invocation where
  command : Command
  options : Given
deriving DecidableEq, Repr

namespace Invocation

/-- The names of the commands. -/
def commands : List Text := ["build", "watch", "help"]

/-- Reads the side after a command; the side in front is settled last. -/
def after (front : Reading) (command : Command) (s : Side) (args : List Text) :
    Except Stop Invocation := do
  let (r, _) ← Reading.side s [] {} args
  let back ← r.finish
  return ⟨command, (← front.finish).merge back⟩

/-- The command of a command line.  Help can be asked for about one command. -/
def ofArguments (args : List Text) : Except Stop Invocation := do
  let (front, command) ← Reading.side .front commands {} args
  match command with
  | none => throw .usage
  | some (name, rest) =>
    match name.toString with
    | "build" => after front .build .build rest
    | "watch" => after front .watch .watch rest
    | _ => match rest with
      | [] => throw .help
      | [topic] => throw (if commands.contains topic then .help else .usage)
      | _ => throw .usage

end Invocation

end Typings
