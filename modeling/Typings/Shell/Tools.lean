import Typings.Files.Disk
import Typings.Shell.StreamEditor

/-!
# Tools

The tools that scripts call: each works on a disk with some arguments and an input, and gives a
status and what it writes.

* `Outcome`: what a tool leaves behind.
* `echo`, `cat`, `copy`, `remove`, `edit`: the tools.
* `isTrue`: the tests of scripts.

A tool that meets a fault goes on with its next argument and gives a status other than zero in the
end. None of them reads anything but the disk and its input, so what a script does is a function of
these.
-/

namespace Typings.Shell

open Files (Disk DirEntry)

/-- What a tool leaves behind. -/
structure Outcome where
  disk : Disk
  output : Text := []
  /-- Zero for success. -/
  status : Nat := 0
deriving Inhabited

/-! ## Text -/

/-- A text with its escapes turned into characters; `\c` ends it. -/
def unescape : Text → Text × Bool
  | [] => ([], false)
  | '\\' :: c :: rest =>
    let put (d : Char) : Text × Bool :=
      let (t, ended) := unescape rest
      (d :: t, ended)
    match c with
    | 'c' => ([], true)
    | 'n' => put '\n'
    | 't' => put '\t'
    | 'r' => put '\r'
    | '\\' => put '\\'
    | c =>
      let (t, ended) := unescape rest
      ('\\' :: c :: t, ended)
  | c :: rest =>
    let (t, ended) := unescape rest
    (c :: t, ended)

/-- Writes its arguments in a line. -/
def echo (d : Disk) (args : List Text) : Outcome :=
  let (args, newline) := match args with
    | ['-', 'n'] :: rest => (rest, false)
    | args => (args, true)
  let (t, ended) := unescape (List.intercalate " " args)
  { disk := d, output := if newline && !ended then t ++ ['\n'] else t }

/-- Writes the texts of files one after the other; a file that cannot be read is left out. -/
def cat (d : Disk) (input : Text) (args : List Text) : Outcome :=
  let names : List Text := if args.isEmpty then ["-"] else args
  let texts := names.map fun (a : Text) =>
    if a == "-" then some input else (d.readFile ⟨a⟩).toOption
  { disk := d, output := (texts.filterMap id).flatten
    status := if texts.all Option.isSome then 0 else 1 }

/-- The arguments after the options, and the letters of the options. -/
def splitOptions : List Text → Text × List Text
  | [] => ([], [])
  | a :: rest =>
    if a == "--" then ([], rest)
    else match a with
      | '-' :: c :: cs =>
        let (letters, args) := splitOptions rest
        (c :: cs ++ letters, args)
      | _ =>
        let (letters, args) := splitOptions rest
        (letters, a :: args)

/-! ## Files -/

/-- A disk with a count of what went wrong. -/
abbrev Work := Disk × Nat

mutual

/-- Copies a file, or a directory with what is in it. -/
def copyTree (recursive : Bool) : Nat → Path → Path → Work → Work
  | 0, _, _, w => w
  | fuel + 1, source, target, (d, faults) =>
    match d.locate source with
    | .ok (.file _) =>
      match (d.readFile source).bind (d.writeFile target) with
      | .ok d => (d, faults)
      | .error _ => (d, faults + 1)
    | .ok (.directory _) =>
      if !recursive then (d, faults + 1)
      else
        let made := if d.isDirectory target then .ok d else d.makeDir target
        match made, d.listDir source with
        | .ok d, .ok entries => copyAll recursive fuel target entries (d, faults)
        | _, _ => (d, faults + 1)
    | _ => (d, faults + 1)

/-- Copies the entries of a directory into another. -/
def copyAll (recursive : Bool) (fuel : Nat) (target : Path) : List DirEntry → Work → Work
  | [], w => w
  | e :: rest, w =>
    let here := target.join ⟨e.path.fileName?.getD []⟩
    copyAll recursive fuel target rest (copyTree recursive fuel e.path here w)

end

/-- The last name of a path as it is spelled. -/
def baseName (t : Text) : Text :=
  let t := Text.trimEndBy (· == '/') t
  (t.reverse.takeWhile (· != '/')).reverse

/-- Copies some files to another place, or into a directory that is there. -/
def copy (d : Disk) (args : List Text) : Outcome :=
  let (letters, paths) := splitOptions args
  let recursive := letters.any fun c => ("Rra" : Text).contains c
  match paths.reverse with
  | target :: source :: more =>
    let into := d.isDirectory ⟨target⟩
    if !into && !more.isEmpty then { disk := d, status := 1 }
    else
      let depth := Disk.store.depth d + 2
      let step (w : Work) (source : Text) : Work :=
        let goal : Path := if into then Path.join ⟨target⟩ ⟨baseName source⟩ else ⟨target⟩
        copyTree recursive depth ⟨source⟩ goal w
      let (d, faults) := (source :: more).reverse.foldl step (d, 0)
      { disk := d, status := if faults == 0 then 0 else 1 }
  | _ => { disk := d, status := 1 }

/-- The disk without a directory and all that is in it. -/
def withoutTree (d : Disk) (dir : Path) : Disk :=
  { d with
    files := ⟨d.files.entries.filter fun (p, _) => !p.startsWith dir⟩
    dirs := ⟨d.dirs.entries.filter fun (p, _) => !p.startsWith dir⟩ }

/-- Removes a file, or a directory if that is asked for. -/
def removeOne (recursive force : Bool) (w : Work) (t : Text) : Work :=
  let (d, faults) := w
  match d.locate ⟨t⟩ with
  | .ok (.file _) =>
    match d.removeFile ⟨t⟩ with
    | .ok d => (d, faults)
    | .error _ => (d, faults + 1)
  | .ok (.directory p) =>
    if recursive && !p.same "/" then (withoutTree d p, faults) else (d, faults + 1)
  | _ => (d, if force then faults else faults + 1)

/-- Removes some files. -/
def remove (d : Disk) (args : List Text) : Outcome :=
  let (letters, paths) := splitOptions args
  let recursive := letters.contains 'r' || letters.contains 'R'
  let force := letters.contains 'f'
  if paths.isEmpty && !force then { disk := d, status := 1 }
  else
    let (d, faults) := paths.foldl (removeOne recursive force) (d, 0)
    { disk := d, status := if faults == 0 then 0 else 1 }

/-! ## The stream editor -/

/-- How the stream editor is called. -/
structure EditorCall where
  quiet : Bool := false
  /-- The files are changed themselves. -/
  inPlace : Bool := false
  scripts : List Text := []
  files : List Text := []

/-- Reads the arguments of the stream editor. -/
def editorCall : List Text → EditorCall
  | [] => {}
  | [a] => { files := [a] }
  | a :: b :: rest =>
    if a == "-n" then
      let c := editorCall (b :: rest)
      { c with quiet := true }
    else if a == "-i" then
      let c := editorCall (b :: rest)
      { c with inPlace := true }
    else if a == "-e" then
      let c := editorCall rest
      { c with scripts := b :: c.scripts }
    else
      let c := editorCall (b :: rest)
      { c with files := a :: c.files }

/-- Changes a file by the editor. -/
def editFile (change : Text → Text) (w : Work) (file : Text) : Work :=
  let (d, faults) := w
  match (d.readFile ⟨file⟩).bind fun t => d.writeFile ⟨file⟩ (change t) with
  | .ok d => (d, faults)
  | .error _ => (d, faults + 1)

/-- Edits texts line by line. -/
def edit (d : Disk) (input : Text) (args : List Text) : Outcome :=
  let c := editorCall args
  let (script, files) := if c.scripts.isEmpty then (c.files.headD [], c.files.drop 1)
    else (List.intercalate "\n" c.scripts, c.files)
  match parseEdits? script with
  | none => { disk := d, status := 1 }
  | some edits =>
    let change := runEdits edits c.quiet
    if c.inPlace then
      let (d, faults) := files.foldl (editFile change) (d, 0)
      { disk := d, status := if faults == 0 then 0 else 4 }
    else
      let source := cat d input files
      { disk := d, output := change source.output, status := if source.status == 0 then 0 else 2 }

/-! ## Tests -/

/-- The number of a text. -/
def number? (t : Text) : Option Int :=
  let digits? (t : Text) : Option Int :=
    if !t.isEmpty && t.all Char.isDigit then
      some (t.foldl (fun n c => n * 10 + (c.toNat - '0'.toNat : Nat)) 0)
    else none
  match t with
  | '-' :: rest => (digits? rest).map fun n => -n
  | t => digits? t

/-- A test of two texts. -/
def compareTest (op a b : Text) : Option Bool :=
  let numbers (f : Int → Int → Bool) : Option Bool := do return f (← number? a) (← number? b)
  match op.toString with
  | "=" => some (a == b)
  | "!=" => some (a != b)
  | "-eq" => numbers (· == ·)
  | "-ne" => numbers (· != ·)
  | "-lt" => numbers (· < ·)
  | "-le" => numbers (· ≤ ·)
  | "-gt" => numbers (· > ·)
  | "-ge" => numbers (· ≥ ·)
  | _ => none

/-- A test of one text. -/
def unaryTest (d : Disk) (op a : Text) : Option Bool :=
  match op.toString with
  | "-n" => some !a.isEmpty
  | "-z" => some a.isEmpty
  | "-e" => some (d.isThere ⟨a⟩)
  | "-d" => some (d.isDirectory ⟨a⟩)
  | "-f" => some (d.isThere ⟨a⟩ && !d.isDirectory ⟨a⟩)
  | "-s" => some (match d.readFile ⟨a⟩ with
      | .ok t => !t.isEmpty
      | .error _ => d.isDirectory ⟨a⟩)
  | _ => none

/-- What a test says; none if it cannot be understood. -/
def isTrue (d : Disk) : List Text → Option Bool
  | [] => some false
  | [a] => some !a.isEmpty
  | [op, a] => if op == "!" then some a.isEmpty else unaryTest d op a
  | [a, op, b] =>
    match compareTest op a b with
    | some r => some r
    | none => if a == "!" then (isTrue d [op, b]).map (!·) else none
  | a :: rest => if a == "!" then (isTrue d rest).map (!·) else none

end Typings.Shell
