import Typings.Path.Normal
import Typings.Unicode.Category

/-!
# Diagnostics

The compiler reports its complaints line by line: a file with a position, a category, a code and a
message.

* `Diagnostic.render`, `formatDiagnostics`: diagnostics as the compiler prints them.
* `parseDiagnostics`: the diagnostics among the lines of a compiler's output.

The two are the ends of one way: what a compiler prints is read again from its output, and what was
read is shown in the form in which it was printed. A file name may hold parentheses, and so may a
message, so the reader takes the longest file that a position follows.
-/

namespace Typings

/-- How serious a diagnostic is. -/
inductive Severity where
  | error
  | warning
  | message
deriving DecidableEq, Repr

/-- The word for a severity. -/
def Severity.text : Severity → Text
  | .error => "error"
  | .warning => "warning"
  | .message => "message"

/-- A complaint of the compiler. -/
structure Diagnostic where
  file : Option Path
  /-- Line and column, counted from one. -/
  position : Option (Nat × Nat)
  severity : Severity
  code : Nat
  message : Text
deriving DecidableEq, Repr

namespace Diagnostic

/-- A line and a column. -/
def renderPosition : Option (Nat × Nat) → Text
  | some (line, column) => "(" ++ Text.ofNat line ++ "," ++ Text.ofNat column ++ ")"
  | none => []

/-- A diagnostic as the compiler prints it; a position without a file is not shown. -/
def render (d : Diagnostic) : Text :=
  let place := match d.file with
    | some f => f.text ++ renderPosition d.position ++ ": "
    | none => []
  place ++ d.severity.text ++ " TS" ++ Text.ofNat d.code ++ ": " ++ d.message

end Diagnostic

/-- Diagnostics, one on a line. -/
def formatDiagnostics (ds : List Diagnostic) : Text := List.intercalate "\n" (ds.map (·.render))

/-! ## Reading -/

/-- The number that digits stand for, if they are digits of ASCII and it is below `bound`. -/
def boundedNumber? (bound : Nat) (digits : Text) : Option Nat :=
  if digits.isEmpty || !digits.all Char.isDigit then none
  else
    let n := digits.foldl (fun n c => n * 10 + (c.toNat - '0'.toNat)) 0
    if n < bound then some n else none

/-- The decimal digits in front of a text, of which there is at least one, and the rest. -/
def digitRun? (t : Text) : Option (Text × Text) :=
  match t.span Unicode.isDecimal with
  | ([], _) => none
  | r => some r

/-- The severity at the front of a text, and the rest. -/
def severityWord? (t : Text) : Option (Severity × Text) :=
  [Severity.error, .warning, .message].findSome? fun s => (List.isPrefixOf? s.text t).map (s, ·)

/-- The end of a diagnostic line: severity, the digits of the code, and message. -/
def reportPart? (t : Text) : Option (Severity × Text × Text) := do
  let (severity, t) ← severityWord? t
  let t ← List.isPrefixOf? " TS" t
  let (code, t) ← digitRun? t
  let message ← List.isPrefixOf? ": " t
  pure (severity, code, message)

/-- What follows the file on a diagnostic line: the digits of the position and the report. -/
def positionPart? (t : Text) : Option (Text × Text × Severity × Text × Text) := do
  let t ← List.isPrefixOf? "(" t
  let (line, t) ← digitRun? t
  let t ← List.isPrefixOf? "," t
  let (column, t) ← digitRun? t
  let t ← List.isPrefixOf? "): " t
  let report ← reportPart? t
  pure (line, column, report)

/-- The file of a line and what follows it: the longest beginning, of one character at least, that a
    position follows.  `front` is what has been passed, last first. -/
def filePart? (front : Text) : Text → Option (Text × Text × Text × Severity × Text × Text)
  | [] => none
  | c :: t =>
    match filePart? (c :: front) t with
    | some r => some r
    | none =>
      if front.isEmpty then none else (positionPart? (c :: t)).map fun r => (front.reverse, r)

/-- The diagnostic on a line; numbers that are too large make it none. -/
def parseDiagnostic? (root : Path) (line : Text) : Option Diagnostic :=
  match filePart? [] line with
  | some (file, l, c, severity, code, message) => do
    let l ← boundedNumber? (Nat.pow 2 64) l
    let c ← boundedNumber? (Nat.pow 2 64) c
    let code ← boundedNumber? (Nat.pow 2 32) code
    pure ⟨some (root.resolve ⟨file⟩), some (l, c), severity, code, message⟩
  | none => do
    let (severity, code, message) ← reportPart? line
    let code ← boundedNumber? (Nat.pow 2 32) code
    pure ⟨none, none, severity, code, message⟩

/-- The diagnostics among the lines of an output. -/
def parseDiagnostics (root : Path) (output : Text) : List Diagnostic :=
  output.lines.filterMap fun l => parseDiagnostic? root l.trimEnd

end Typings
