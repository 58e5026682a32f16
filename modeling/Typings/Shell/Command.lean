import Typings.Shell.Word

/-!
# Commands

* `Command`: simple commands and what joins them.
* `parseScript`: the commands of a script, one for each of its lines.

Commands are joined by pipes, by what depends on success or failure and by the end of a line. Where
the text cannot be understood the reader stops, and the commands in front of that line are still run,
as the language has it.
-/

namespace Typings.Shell

/-- A stream that goes to a file or comes from one. -/
structure Redirect where
  stream : Nat
  op : Text
  target : Word
deriving DecidableEq, Repr, Inhabited

/-- A command of the language. -/
inductive Command where
  | simple (assigned : List (Text × Word)) (words : List Word) (redirects : List Redirect)
  | pipe (left right : Command)
  | seq (left right : Command)
  | andThen (left right : Command)
  | orElse (left right : Command)
  | negate (body : Command)
  | cond (test yes no : Command)
  /-- Runs while the test succeeds, or fails. -/
  | loop (whileSucceeds : Bool) (test body : Command)
  | each (name : Text) (words : List Word) (body : Command)
  /-- A group; what a group of its own changes is not seen outside. -/
  | group (apart : Bool) (body : Command) (redirects : List Redirect)
  | nothing
deriving Repr, Inhabited

/-- An assignment, if a word is one. -/
def assignment? (t : Token) : Option (Text × Word) :=
  match t with
  | .plain w => split (w.map fun c => .text [c])
  | .word w => split w
  | _ => none
where
  /-- Splits a word at its first sign of equality, if a name stands in front of it. -/
  split (w : Word) : Option (Text × Word) :=
    let isLetter : Part → Bool
      | .text [c] => isNameChar c
      | _ => false
    match w.span isLetter with
    | (name, .text ['='] :: value) =>
      let name := plainText name
      match name with
      | c :: _ => if c.isDigit then none else some (name, value)
      | [] => none
    | _ => none

/-- Passes over line ends. -/
def skipLines : List Token → List Token
  | .op ['\n'] :: rest => skipLines rest
  | ts => ts

/-- Reads redirections. -/
def readRedirects : List Token → Option (List Redirect × List Token)
  | .redirect stream op :: t :: rest => do
    let w ← t.word?
    let (rs, rest) ← readRedirects rest
    return (⟨stream, op, w⟩ :: rs, rest)
  | .redirect _ _ :: [] => none
  | ts => some ([], ts)

/-- Reads the words and redirections of a simple command. -/
def readWords : List Token → Option (List Word × List Redirect × List Token)
  | .redirect stream op :: t :: rest => do
    let w ← t.word?
    let (ws, rs, rest) ← readWords rest
    return (ws, ⟨stream, op, w⟩ :: rs, rest)
  | .redirect _ _ :: [] => none
  | .word w :: rest => do
    let (ws, rs, rest) ← readWords rest
    return (w :: ws, rs, rest)
  | .plain t :: rest => do
    let (ws, rs, rest) ← readWords rest
    return ([.text t] :: ws, rs, rest)
  | ts => some ([], [], ts)

/-- Reads the assignments in front of a simple command. -/
def readAssignments : List Token → List (Text × Word) × List Token
  | [] => ([], [])
  | t :: rest =>
    match assignment? t with
    | some a =>
      let (as, rest) := readAssignments rest
      (a :: as, rest)
    | none => ([], t :: rest)

/-- The words that close something and start no command. -/
def closers : List Text := ["then", "else", "elif", "fi", "do", "done", "\x7d", "esac", "in"]

/-- Nothing more belongs to the present list. -/
def endsList : List Token → Bool
  | [] => true
  | .op t :: _ => t == ")"
  | .plain t :: _ => closers.contains t
  | _ => false

/-- Reads a simple command. -/
def readSimple (ts : List Token) : Option (Command × List Token) := do
  let (as, ts) := readAssignments ts
  let (ws, rs, ts) ← readWords ts
  if as.isEmpty && ws.isEmpty && rs.isEmpty then none else return (.simple as ws rs, ts)

/-- Passes over a keyword. -/
def expect (keyword : Text) : List Token → Option (List Token)
  | .plain t :: rest => if t == keyword then some rest else none
  | _ => none

mutual

/-- Reads commands one after the other up to what closes them. -/
def readList : Nat → List Token → Option (Command × List Token)
  | 0, _ => none
  | fuel + 1, ts =>
    let ts := skipLines ts
    if endsList ts then some (.nothing, ts)
    else do
      let (c, ts) ← readAndOr fuel ts
      match ts with
      | .op t :: rest =>
        if t == ";" || t == "&" || t == "\n" then
          let (d, ts) ← readList fuel rest
          return (.seq c d, ts)
        else return (c, ts)
      | ts => return (c, ts)

/-- Reads pipelines of which each depends on the one before. -/
def readAndOr : Nat → List Token → Option (Command × List Token)
  | 0, _ => none
  | fuel + 1, ts => do
    let (c, ts) ← readPipeline fuel ts
    readAndOrRest fuel c ts

/-- Reads what depends on a command. -/
def readAndOrRest : Nat → Command → List Token → Option (Command × List Token)
  | 0, _, _ => none
  | fuel + 1, c, .op t :: rest =>
    if t == "&&" || t == "||" then do
      let (d, ts) ← readPipeline fuel (skipLines rest)
      readAndOrRest fuel (if t == "&&" then .andThen c d else .orElse c d) ts
    else some (c, .op t :: rest)
  | _ + 1, c, ts => some (c, ts)

/-- Reads commands of which each reads what the one before writes. -/
def readPipeline : Nat → List Token → Option (Command × List Token)
  | 0, _ => none
  | fuel + 1, ts =>
    match expect "!" ts with
    | some rest => do
      let (c, ts) ← readPipeline fuel rest
      return (.negate c, ts)
    | none => do
      let (c, ts) ← readCommand fuel ts
      match ts with
      | .op ['|'] :: rest =>
        let (d, ts) ← readPipeline fuel (skipLines rest)
        return (.pipe c d, ts)
      | ts => return (c, ts)

/-- Reads one command. -/
def readCommand : Nat → List Token → Option (Command × List Token)
  | 0, _ => none
  | fuel + 1, ts =>
    match ts with
    | .op t :: rest =>
      if t == "(" then do
        let (c, ts) ← readList fuel rest
        match ts with
        | .op [')'] :: ts =>
          let (rs, ts) ← readRedirects ts
          return (.group true c rs, ts)
        | _ => none
      else none
    | .plain t :: rest =>
      if t == "\x7b" then readGroup fuel rest "\x7d" id
      else if t == "while" || t == "until" then do
        let (test, ts) ← readList fuel rest
        let ts ← expect "do" ts
        readGroup fuel ts "done" (.loop (t == "while") test)
      else if t == "for" then readFor fuel rest
      else if t == "if" then do
        let (c, ts) ← readIf fuel rest
        let (rs, ts) ← readRedirects ts
        return (.group false c rs, ts)
      else if closers.contains t then none
      else readSimple ts
    | ts => readSimple ts

/-- Reads a body up to its closing word, and the redirections after that. -/
def readGroup : Nat → List Token → Text → (Command → Command) → Option (Command × List Token)
  | 0, _, _, _ => none
  | fuel + 1, ts, closer, make => do
    let (c, ts) ← readList fuel ts
    let ts ← expect closer ts
    let (rs, ts) ← readRedirects ts
    return (.group false (make c) rs, ts)

/-- Reads what follows `for`. -/
def readFor : Nat → List Token → Option (Command × List Token)
  | 0, _ => none
  | fuel + 1, ts =>
    match ts with
    | .plain name :: rest => do
      let (words, ts) ← match expect "in" (skipLines rest) with
        | some rest =>
          let (ws, _, ts) ← readWords rest
          pure (ws, ts)
        | none => pure ([[.parameter "@" true]], rest)
      let ts := match ts with
        | .op [';'] :: ts => skipLines ts
        | ts => skipLines ts
      let ts ← expect "do" ts
      readGroup fuel ts "done" (.each name words)
    | _ => none

/-- Reads what follows `if`. -/
def readIf : Nat → List Token → Option (Command × List Token)
  | 0, _ => none
  | fuel + 1, ts => do
    let (test, ts) ← readList fuel ts
    let ts ← expect "then" ts
    let (yes, ts) ← readList fuel ts
    match ts with
    | .plain t :: rest =>
      if t == "fi" then return (.cond test yes .nothing, rest)
      else if t == "elif" then
        let (no, ts) ← readIf fuel rest
        return (.cond test yes no, ts)
      else if t == "else" then
        let (no, ts) ← readList fuel rest
        return (.cond test yes no, ← expect "fi" ts)
      else none
    | _ => none

end

/-- Reads the lines of a script, up to the first that cannot be understood. -/
def readLines : Nat → List Token → List Command × Bool
  | 0, _ => ([], false)
  | fuel + 1, ts =>
    match skipLines ts with
    | [] => ([], true)
    | ts =>
      match readAndOr (ts.length * 8 + 8) ts with
      | none => ([], false)
      | some (c, .op t :: rest) =>
        if t == ";" || t == "&" || t == "\n" then
          let (cs, ok) := readLines fuel rest
          (c :: cs, ok)
        else ([], false)
      | some (c, []) => ([c], true)
      | some _ => ([], false)

/-- The commands of a script, and whether all of it could be understood. -/
def parseScript (script : Text) : List Command × Bool :=
  let (ts, ok) := tokens script
  let (cs, all) := readLines (ts.length + 1) ts
  (cs, ok && all)

end Typings.Shell
