import Typings.Regex.Replace

/-!
# The stream editor

A script of the editor is run on every line of a text: a line can be changed where a basic regular
expression matches it, printed or dropped.

* `Edit`: one command of a script.
* `parseEdits?`: the commands of a script.
* `runEdits`: a text after its lines have been edited.

A basic expression is rewritten in the notation of `Regex`, where the two differ in which characters
have a meaning of their own. Every match in a line is replaced if that is asked for, and a match may
be empty.
-/

namespace Typings.Shell

open Regex (Pattern)

/-- The lines that a command is for. -/
inductive Address where
  | every
  | line (n : Nat)
  | last
  | matching (p : Pattern)

/-- What a command does with a line. -/
inductive EditAction where
  | replace (find : Pattern) (template : Text) (all print : Bool)
  | print
  | drop
  | quit

/-- One command of a script. -/
structure Edit where
  address : Address
  action : EditAction

/-- A character with a meaning of its own in an extended expression but none in a basic one. -/
def isPlainInBasic (c : Char) : Bool := ("+?|()\x7b\x7d" : Text).contains c

/-- A bracket expression, copied with the characters escaped that only the other syntax treats
    specially, and what follows it. -/
def copyBracket (first : Bool) : Text → Text × Text
  | [] => ([], [])
  | c :: rest =>
    if c == ']' && !first then ([']'], rest)
    else
      let (a, b) := copyBracket (first && c == '^') rest
      let c' : Text := if ("[\\&~]" : Text).contains c then ['\\', c] else [c]
      (c' ++ a, b)

/-- A basic regular expression in the other syntax. -/
def ofBasic : Nat → Bool → Text → Text
  | 0, _, _ => []
  | _, _, [] => []
  | fuel + 1, _, '\\' :: c :: rest =>
    if isPlainInBasic c then c :: ofBasic fuel (c == '(' || c == '|') rest
    else if c == 'n' then '\\' :: 'n' :: ofBasic fuel false rest
    else if c.isAlphanum then c :: ofBasic fuel false rest
    else '\\' :: c :: ofBasic fuel false rest
  | fuel + 1, start, c :: rest =>
    if c == '[' then
      let (a, b) := copyBracket true rest
      '[' :: a ++ ofBasic fuel false b
    else if c == '*' && start then '\\' :: '*' :: ofBasic fuel false rest
    else if c == '^' && !start then '\\' :: '^' :: ofBasic fuel false rest
    else if c == '$' && !rest.isEmpty && !Text.startsWith rest "\\)" then
      '\\' :: '$' :: ofBasic fuel false rest
    else if isPlainInBasic c then '\\' :: c :: ofBasic fuel false rest
    else c :: ofBasic fuel (start && c == '^') rest

/-- A basic regular expression, if it can be read. -/
def basicPattern? (source : Text) : Option Pattern :=
  (Pattern.parse (ofBasic (source.length + 1) true source)).toOption

/-- A template of the editor as one with named groups. -/
def ofTemplate : Text → Text
  | [] => []
  | '&' :: rest => "$\x7b0\x7d" ++ ofTemplate rest
  | '$' :: rest => "$$" ++ ofTemplate rest
  | '\\' :: c :: rest =>
    if c.isDigit then "$\x7b" ++ [c] ++ "\x7d" ++ ofTemplate rest
    else if c == 'n' then '\n' :: ofTemplate rest
    else if c == '$' then "$$" ++ ofTemplate rest
    else c :: ofTemplate rest
  | c :: rest => c :: ofTemplate rest

/-- What stands in front of a mark that is not escaped, and what follows it. -/
def upToMark (mark : Char) : Text → Option (Text × Text)
  | [] => none
  | '\\' :: c :: rest => do
    let (a, b) ← upToMark mark rest
    return (if c == mark then (c :: a, b) else ('\\' :: c :: a, b))
  | c :: rest =>
    if c == mark then some ([], rest)
    else (upToMark mark rest).map fun (a, b) => (c :: a, b)

/-- Reads the address of a command. -/
def readAddress (t : Text) : Option (Address × Text) :=
  match t with
  | '$' :: rest => some (.last, rest)
  | '/' :: rest => do
    let (source, rest) ← upToMark '/' rest
    return (.matching (← basicPattern? source), rest)
  | t =>
    let digits : Text := t.takeWhile Char.isDigit
    if digits.isEmpty then some (.every, t)
    else some (.line (digits.foldl (fun n c => n * 10 + (c.toNat - '0'.toNat)) 0),
      t.dropWhile Char.isDigit)

/-- A character between commands. -/
def isBetweenEdits (c : Char) : Bool := c == ';' || c == '\n' || c == ' '

/-- Reads one command. -/
def readEdit (t : Text) : Option (Edit × Text) := do
  let (address, t) ← readAddress t
  match t.dropWhile (· == ' ') with
  | 'p' :: rest => return (⟨address, .print⟩, rest)
  | 'd' :: rest => return (⟨address, .drop⟩, rest)
  | 'q' :: rest => return (⟨address, .quit⟩, rest)
  | 's' :: mark :: rest =>
    let (source, rest) ← upToMark mark rest
    let (template, rest) ← upToMark mark rest
    let isFlag (c : Char) : Bool := c == 'g' || c == 'p'
    let flags : Text := rest.takeWhile isFlag
    let action := .replace (← basicPattern? source) (ofTemplate template) (flags.contains 'g')
      (flags.contains 'p')
    return (⟨address, action⟩, rest.dropWhile isFlag)
  | _ => none

/-- Reads the commands of a script. -/
def readEdits : Nat → Text → Option (List Edit)
  | 0, _ => none
  | fuel + 1, t =>
    match t.dropWhile isBetweenEdits with
    | [] => some []
    | t => do
      let (e, rest) ← readEdit t
      match rest with
      | [] => return [e]
      | c :: _ => if isBetweenEdits c then return e :: (← readEdits fuel rest) else none

/-- The commands of a script. -/
def parseEdits? (script : Text) : Option (List Edit) := readEdits (script.length + 1) script

/-- Every match in a line turned into the template. -/
def replaceAll (p : Pattern) (template : Text) : Nat → Text → Text
  | 0, t => t
  | fuel + 1, t =>
    match p.find? t with
    | none => t
    | some m =>
      match m.group? 0 with
      | none => t
      | some (start, stop) =>
        let made := p.expand t m template
        if stop == start then
          match t.drop stop with
          | [] => t.take start ++ made
          | c :: rest => t.take start ++ made ++ c :: replaceAll p template fuel rest
        else t.take start ++ made ++ replaceAll p template fuel (t.drop stop)

/-- A line on its way through the commands. -/
structure EditedLine where
  line : Text
  /-- Lines that were printed on the way. -/
  printed : List Text := []
  dropped : Bool := false
  quit : Bool := false

/-- The command is for the line. -/
def Address.selects (a : Address) (number : Nat) (isLast : Bool) (line : Text) : Bool :=
  match a with
  | .every => true
  | .line n => n == number
  | .last => isLast
  | .matching p => p.isMatch line

/-- One command on a line. -/
def Edit.apply (e : Edit) (number : Nat) (isLast : Bool) (l : EditedLine) : EditedLine :=
  if l.dropped || l.quit || !e.address.selects number isLast l.line then l
  else match e.action with
    | .print => { l with printed := l.printed ++ [l.line] }
    | .drop => { l with dropped := true }
    | .quit => { l with quit := true }
    | .replace find template all print =>
      if find.isMatch l.line then
        let line := if all then replaceAll find template (l.line.length + 1) l.line
          else find.replaceFirst l.line template
        { l with line, printed := if print then l.printed ++ [line] else l.printed }
      else l

/-- The lines of a text after the commands; `quiet` lines are shown only where a command prints
    them. -/
def editLines (edits : List Edit) (quiet : Bool) : Nat → List Text → List Text
  | _, [] => []
  | number, line :: rest =>
    let l := edits.foldl (fun l e => e.apply number rest.isEmpty l) ⟨line, [], false, false⟩
    let shown := l.printed ++ if quiet || l.dropped then [] else [l.line]
    shown ++ if l.quit then [] else editLines edits quiet (number + 1) rest

/-- A text after its lines have been edited; a last line without an end stays without one. -/
def runEdits (edits : List Edit) (quiet : Bool) (t : Text) : Text :=
  let ended := t.isEmpty || Text.endsWith t "\n"
  let lines := List.splitOn '\n' t
  let shown := editLines edits quiet 1 (if ended then lines.dropLast else lines)
  let joined := shown.flatMap fun l => l ++ ['\n']
  if ended then joined else joined.dropLast

end Typings.Shell
