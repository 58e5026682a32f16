import Typings.Shell.Command
import Typings.Shell.Tools
import Typings.Tool

/-!
# Running scripts

A script runs on a disk from a directory, with arguments and variables of its own.  What it writes is
collected; what went wrong shows in its status.

* `Shell`: a script while it runs.
* `Shell.run`: one command of a script.
* `shellTools`: the tools of a build, run by this interpreter.

A word is expanded as the language has it: parameters, then the output of commands, then division into
fields where it is not quoted.  A command is run with `fuel`, so that a loop that never ends stops at
the limit.  What is run apart sees the state of the script and changes only the disk.
-/

namespace Typings

open Files (Disk SystemFault)
open Shell (Part Word Command Redirect Outcome)

/-- A script while it runs. -/
structure ShellState where
  disk : Disk
  /-- The values of its variables. -/
  bound : List (Text × Text) := []
  /-- The name of the script. -/
  name : Text := "sh"
  arguments : List Text := []
  input : Text := []
  output : Text := []
  status : Nat := 0
deriving Inhabited

/-- A step of a script; a script ends early with a status. -/
abbrev ShellM := EStateM Nat ShellState

namespace ShellState

/-- The value of a variable. -/
def value? (s : ShellState) (name : Text) : Option Text :=
  (s.bound.find? (·.1 == name)).map (·.2)

/-- Gives a variable a value. -/
def assign (s : ShellState) (name value : Text) : ShellState :=
  { s with bound := (name, value) :: s.bound.filter (·.1 != name) }

/-- The value of a parameter. -/
def parameter? (s : ShellState) (name : Text) : Option Text :=
  match name with
  | ['#'] => some (Text.ofNat s.arguments.length)
  | ['?'] => some (Text.ofNat s.status)
  | ['@'] => some (List.intercalate " " s.arguments)
  | ['*'] => some (List.intercalate " " s.arguments)
  | ['0'] => some s.name
  | name =>
    match Shell.number? name with
    | some n => if n > 0 then s.arguments[n.toNat - 1]? else none
    | none => s.value? name

end ShellState

namespace Shell

/-! ## Words -/

/-- Fields on the way: those that are complete, and the one that is open. -/
structure Fields where
  done : List Text := []
  current : Option Text := none

/-- Text that stays in one field. -/
def Fields.add (f : Fields) (t : Text) : Fields := { f with current := some (f.current.getD [] ++ t) }

/-- Ends the open field. -/
def Fields.close (f : Fields) : Fields :=
  match f.current with
  | some t => ⟨f.done ++ [t], none⟩
  | none => f

/-- Text that blanks divide into fields. -/
def Fields.addSplit (f : Fields) (t : Text) : Fields :=
  t.foldl (fun f c => if c == ' ' || c == '\t' || c == '\n' then f.close else f.add [c]) f

/-- A parameter that is used as it is, or with another text where it has no value or an empty one. -/
def splitDefault (expr : Text) : Text × Option (Char × Bool × Text) :=
  let isName := match expr with
    | c :: _ => isNameChar c
    | [] => false
  let name : Text := if isName then expr.takeWhile isNameChar else expr.take 1
  match expr.drop name.length with
  | ':' :: op :: word => (name, some (op, true, word))
  | op :: word => (name, some (op, false, word))
  | [] => (name, none)

/-- The value of an expression in a word, of which the texts in it are plain. -/
def parameterValue (s : ShellState) (expr : Text) : Text :=
  let (name, alternative) := splitDefault expr
  let value := s.parameter? name
  match alternative with
  | none => value.getD []
  | some (op, emptyToo, word) =>
    let isSet := match value with
      | some v => !(emptyToo && v.isEmpty)
      | none => false
    match op with
    | '-' => if isSet then value.getD [] else word
    | '+' => if isSet then word else []
    | _ => value.getD []

/-- The output of a script without the line ends behind it. -/
def trimOutput (t : Text) : Text := Text.trimEndBy (· == '\n') t

/-- Adds the arguments as fields of their own. -/
def addArguments (quoted : Bool) (args : List Text) (f : Fields) : Fields :=
  let add (f : Fields) (a : Text) : Fields := if quoted then f.add a else f.addSplit a
  match args with
  | [] => f
  | a :: rest => rest.foldl (fun f a => add f.close a) (add f a)

/-- Adds a piece of a word to the fields. -/
def addPart (substitute : Text → ShellM Text) (f : Fields) : Part → ShellM Fields
  | .text t => return f.add t
  | .parameter expr quoted => do
    let s ← get
    if expr == "@" || (expr == "*" && !quoted) then return addArguments quoted s.arguments f
    let value := parameterValue s expr
    return if quoted then f.add value else f.addSplit value
  | .output script quoted => do
    let value := trimOutput (← substitute script)
    return if quoted then f.add value else f.addSplit value

/-- Adds the pieces of a word to the fields. -/
def addParts (substitute : Text → ShellM Text) (f : Fields) : Word → ShellM Fields
  | [] => return f
  | p :: ps => do
    let f ← addPart substitute f p
    addParts substitute f ps

/-- The fields that some words stand for. -/
def expandWords (substitute : Text → ShellM Text) : List Word → ShellM (List Text)
  | [] => return []
  | w :: ws => do
    let f ← addParts substitute {} w
    return f.close.done ++ (← expandWords substitute ws)

/-- The one text that a word stands for. -/
def expandText (substitute : Text → ShellM Text) (w : Word) : ShellM Text := do
  let quote : Part → Part
    | .text t => .text t
    | .parameter e _ => .parameter (if e == "@" then "*" else e) true
    | .output t _ => .output t true
  let f ← addParts substitute {} (w.map quote)
  return f.current.getD []

/-! ## Streams -/

/-- The file that takes anything and holds nothing. -/
def isNullDevice (t : Text) : Bool := t == "/dev/null"

/-- Where a stream goes, for one command. -/
structure Streams where
  /-- The file that takes the output, with what it held before. -/
  target : Option (Text × Text) := none
  /-- The output is lost. -/
  lost : Bool := false

/-- Opens the files of some redirections; none if one of them cannot be opened. -/
def openStreams (substitute : Text → ShellM Text) (streams : Streams) :
    List Redirect → ShellM (Option Streams)
  | [] => return some streams
  | r :: rest => do
    let file ← expandText substitute r.target
    let s ← get
    if r.op == "<" then
      if isNullDevice file then
        set { s with input := [] }
        openStreams substitute streams rest
      else match s.disk.readFile ⟨file⟩ with
        | .ok t =>
          set { s with input := t }
          openStreams substitute streams rest
        | .error _ => return none
    else if r.op == ">&" || r.op == "<&" then
      let lost := streams.lost || (r.stream == 1 && file == "2")
      openStreams substitute { streams with lost } rest
    else if isNullDevice file then
      openStreams substitute { streams with lost := streams.lost || r.stream == 1 } rest
    else
      let before := if r.op == ">>" then (s.disk.readFile ⟨file⟩).toOption.getD [] else []
      match s.disk.writeFile ⟨file⟩ before with
      | .error _ => return none
      | .ok disk =>
        set { s with disk }
        let streams := if r.stream == 1 then { target := some (file, before) } else streams
        openStreams substitute streams rest

/-- Runs a body with its streams redirected. -/
def redirected (substitute : Text → ShellM Text) (redirects : List Redirect) (body : ShellM Unit) :
    ShellM Unit := do
  if redirects.isEmpty then body
  else
    let before ← get
    match ← openStreams substitute {} redirects with
    | none => modify fun s => { s with status := 2, input := before.input }
    | some streams =>
      modify fun s => { s with output := [] }
      body
      modify fun s =>
        let back := { s with input := before.input, output := before.output }
        match streams.target with
        | some (file, held) =>
          match s.disk.writeFile ⟨file⟩ (held ++ s.output) with
          | .ok disk => { back with disk }
          | .error _ => back
        | none => if streams.lost then back else { back with output := before.output ++ s.output }

/-! ## Commands -/

/-- What a tool left behind becomes part of the script's state. -/
def leave (o : Outcome) : ShellM Unit := modify fun s =>
  { s with disk := o.disk, output := s.output ++ o.output, status := o.status }

/-- Only the status changes. -/
def setStatus (n : Nat) : ShellM Unit := modify fun s => { s with status := n }

/-- Success or failure as a status. -/
def setResult (ok : Option Bool) : ShellM Unit :=
  setStatus (match ok with
    | some true => 0
    | some false => 1
    | none => 2)

/-- The tests between brackets. -/
def bracketTest (d : Disk) (args : List Text) : Option Bool :=
  if args.getLast? == some "]" then isTrue d args.dropLast else none

/-- Changes the current directory. -/
def changeDir (args : List Text) : ShellM Unit := do
  let s ← get
  match args with
  | [dir] =>
    match s.disk.locate ⟨dir⟩ with
    | .ok (.directory p) => set { s with disk := { s.disk with currentDir := p }, status := 0 }
    | _ => setStatus 2
  | _ => setStatus 2

/-- Drops arguments of the script. -/
def shiftArguments (args : List Text) : ShellM Unit := do
  let s ← get
  let n := match args with
    | a :: _ => ((number? a).getD 1).toNat
    | [] => 1
  if n ≤ s.arguments.length then set { s with arguments := s.arguments.drop n, status := 0 }
  else throw 2

/-- Runs the commands of a script up to its end. -/
def runScript (run : Command → ShellM Unit) (script : Text) : ShellM Unit := do
  let (commands, complete) := parseScript script
  commands.forM run
  if !complete then throw 2

/-- Runs a body apart: of what it changes only the disk stays, and its output is given. -/
def apart (body : ShellM Unit) : ShellM Text := fun s =>
  let (disk, output, status) := match body { s with output := [] } with
    | .ok _ t => (t.disk, t.output, t.status)
    | .error n t => (t.disk, t.output, n)
  .ok output { s with disk := { disk with currentDir := s.disk.currentDir }, status }

/-- Runs a script apart, and adds its output. -/
def runApart (body : ShellM Unit) : ShellM Unit := do
  let output ← apart body
  modify fun s => { s with output := s.output ++ output }

/-- Starts a script of its own: from a file, or from the command line itself. -/
def startScript (run : Command → ShellM Unit) (args : List Text) : ShellM Unit := do
  let s ← get
  let begin (script name : Text) (args : List Text) : ShellM Unit := runApart do
    set { s with bound := [], name, arguments := args, output := [], status := 0 }
    runScript run script
  match args with
  | ['-', 'c'] :: script :: rest => begin script (rest.headD "sh") (rest.drop 1)
  | file :: rest =>
    match s.disk.readFile ⟨file⟩ with
    | .ok script => begin script file rest
    | .error _ => setStatus 2
  | [] => begin s.input "sh" []

/-- Runs a program with its arguments; tells whether there is one of that name. -/
def callProgram (run : Command → ShellM Unit) (name : Text) (args : List Text) : ShellM Bool := do
  let s ← get
  match name.toString with
  | "sh" => startScript run args
  | "true" => setStatus 0
  | "false" => setStatus 1
  | "echo" => leave (echo s.disk args)
  | "cat" => leave (cat s.disk s.input args)
  | "cp" => leave (copy s.disk args)
  | "rm" => leave (remove s.disk args)
  | "sed" => leave (edit s.disk s.input args)
  | "test" => setResult (isTrue s.disk args)
  | "[" => setResult (bracketTest s.disk args)
  | _ => return false
  return true

/-- Runs a command of the language itself, or a program. -/
def call (run : Command → ShellM Unit) (name : Text) (args : List Text) : ShellM Unit := do
  let s ← get
  match name.toString with
  | ":" => setStatus 0
  | "cd" => changeDir args
  | "shift" => shiftArguments args
  | "exit" => throw (match args with
      | a :: _ => (((number? a).getD 2) % 256).toNat
      | [] => s.status)
  | _ => if !(← callProgram run name args) then setStatus 127

/-- Gives variables the values of some words. -/
def assignAll (substitute : Text → ShellM Text) : List (Text × Word) → ShellM Unit
  | [] => return
  | (name, w) :: rest => do
    let value ← expandText substitute w
    modify fun s => s.assign name value
    assignAll substitute rest

/-- Runs a body for each of some values. -/
def forEach (name : Text) (body : ShellM Unit) : List Text → ShellM Unit
  | [] => return
  | v :: vs => do
    modify fun s => s.assign name v
    body
    forEach name body vs

/-- The last command succeeded. -/
def succeeded : ShellM Bool := do return (← get).status == 0

/-- Runs a command; each level of it and each turn of a loop takes one of `fuel`. -/
def run : Nat → Command → ShellM Unit
  | 0, _ => throw 2
  | fuel + 1, command => do
    let substitute (script : Text) : ShellM Text := apart (runScript (run fuel) script)
    match command with
    | .nothing => return
    | .simple assigned words redirects =>
      match ← expandWords substitute words with
      | [] => redirected substitute redirects do
          setStatus 0
          assignAll substitute assigned
      | name :: args => redirected substitute redirects do
          assignAll substitute assigned
          call (run fuel) name args
    | .pipe left right =>
      let input := (← get).input
      let output ← apart (run fuel left)
      modify fun s => { s with input := output }
      runApart (run fuel right)
      modify fun s => { s with input }
    | .seq left right =>
      run fuel left
      run fuel right
    | .andThen left right =>
      run fuel left
      if ← succeeded then run fuel right
    | .orElse left right =>
      run fuel left
      if !(← succeeded) then run fuel right
    | .negate body =>
      run fuel body
      setStatus (if ← succeeded then 1 else 0)
    | .cond test yes no =>
      run fuel test
      if ← succeeded then run fuel yes
      else
        setStatus 0
        run fuel no
    | .loop whileSucceeds test body =>
      run fuel test
      if (← succeeded) == whileSucceeds then
        run fuel body
        run fuel (.loop whileSucceeds test body)
      else setStatus 0
    | .each name words body =>
      let values ← expandWords substitute words
      setStatus 0
      forEach name (run fuel body) values
    | .group separate body redirects =>
      redirected substitute redirects (if separate then runApart (run fuel body) else run fuel body)

/-- How many levels and turns a script may take. -/
def limit : Nat := 100000

end Shell

/-- Runs a program by name in a directory.  That there is no such program, or no such directory, is
    what the system reports. -/
def runProgram (dir : Path) (program : Text) (args : List Text) (d : Disk) :
    Except SystemFault (Nat × Text) × Disk :=
  match d.locate dir with
  | .ok (.directory p) =>
    let start : ShellState := { disk := { d with currentDir := p } }
    let (known, s, status) := match Shell.callProgram (Shell.run Shell.limit) program args start with
      | .ok known s => (known, s, s.status)
      | .error n s => (true, s, n)
    let disk := { s.disk with currentDir := d.currentDir }
    (if known then .ok (status, s.output) else .error .noEntry, disk)
  | .ok _ => (.error .notDirectory, d)
  | .error e => (.error e, d)

/-- The tools of a build, run by this interpreter. -/
def shellTools : ToolRunner Disk := ⟨runProgram⟩

end Typings
