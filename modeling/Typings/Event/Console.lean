import Typings.Event

/-!
# Events for people

* `Console.render`: the line shown for an event, if it is shown.
* `Console.errorLine`: the line shown for an error that ended a build.

A line has the name of the program in front, then a sign for its kind, then the text, with colours
where they are on. A terminal that cannot show signs beyond ASCII gets signs within it. An event that
the verbosity does not let through has no line at all.
-/

namespace Typings

/-- The colours used, each with one meaning. -/
inductive Colour where
  | success
  | error
  | warning
  | info
  | dim
deriving DecidableEq, Repr

/-- The number of a colour among the 256 of a terminal. -/
def Colour.code : Colour → Nat
  | .success => 10
  | .error => 9
  | .warning => 11
  | .info => 14
  | .dim => 8

/-- The signs in front of lines. -/
structure Icons where
  success : Text
  error : Text
  warning : Text
  progress : Text
  arrow : Text

/-- Signs of one character each. -/
def Icons.unicode : Icons := ⟨"✓", "✗", "⚠", "●", "↳"⟩

/-- Signs within ASCII. -/
def Icons.ascii : Icons := ⟨"[OK]", "[FAIL]", "[WARN]", "[..]", "[>]"⟩

/-- How lines are shown. -/
structure Console where
  verbosity : Verbosity
  colour : Bool
  unicode : Bool

namespace Console

/-- The name in front of every line. -/
def tag : Text := "[declpack]"

/-- The signs in use. -/
def icons (c : Console) : Icons := if c.unicode then .unicode else .ascii

/-- A text in a colour. -/
def paint (c : Console) (colour : Colour) (t : Text) : Text :=
  if c.colour then "\x1b[38;5;" ++ Text.ofNat colour.code ++ "m" ++ t ++ "\x1b[39m" else t

/-- A warning. -/
def warning (c : Console) (t : Text) : Text := c.paint .warning (c.icons.warning ++ " " ++ t)

/-- What is shown of an event. -/
def body (c : Console) : Event → Text
  | .started => "generating declaration files..."
  | .phase name => c.paint .dim (c.icons.progress ++ " " ++ name)
  | .diagnostics count formatted =>
    c.warning (Text.ofNat count ++ " declaration diagnostic(s)") ++ "\n" ++ formatted.trimEnd
  | .notALibrary => c.warning "no [lib] entry configured; every source file is a root"
  | .fileWritten p => c.paint .dim (c.icons.arrow ++ " " ++ p.text)
  | .outsideOutDir p => c.warning ("skipped " ++ p.text ++ ": outside the output directory")
  | .sourceMapFailed p reason => c.warning ("could not relocate " ++ p.text ++ ": " ++ reason)
  | .rollupStarted => "rolling up declaration files..."
  | .finished written millis =>
    c.paint .success (c.icons.success ++ " declaration built in " ++ Text.ofNat millis ++ "ms (" ++
      Text.ofNat written ++ " files)")

/-- A line with the name in front. -/
def line (c : Console) (t : Text) : Text := c.paint .info tag ++ " " ++ t

/-- The line shown for an event, if the verbosity lets it through. -/
def render (c : Console) (e : Event) : Option Text :=
  if e.verbosity.level ≤ c.verbosity.level then some (c.line (c.body e)) else none

/-- The line shown for an error that ended a build. -/
def errorLine (c : Console) (message : Text) : Text :=
  c.line (c.paint .error (c.icons.error ++ " " ++ message))

/-- Single files are worth an event. -/
def wantsDetails (c : Console) : Bool := Verbosity.verbose.level ≤ c.verbosity.level

end Console

end Typings
