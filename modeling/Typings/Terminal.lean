import Typings.Text

/-!
# Terminals

What can be shown is read off the environment variables.

* `Terminal.detect`: the capabilities.
* `ColourMode`, `Terminal.colourEnabled`: whether lines are coloured.

Under `auto` lines are coloured only where somebody looks at them: on a terminal that is not dumb,
without `NO_COLOR` and outside of an automated build. The other modes have their way whatever the
environment says.
-/

namespace Typings

/-- When lines are coloured. -/
inductive ColourMode where
  | auto
  | always
  | never
deriving DecidableEq, Repr, Inhabited

/-- Environment variables by name. -/
abbrev Environment := List (Text × Text)

/-- What can be shown. -/
structure Terminal where
  isTty : Bool
  colour : Bool
  unicode : Bool
  /-- Lines go to the log of an automated build. -/
  automated : Bool
deriving DecidableEq, Repr

/-- The variables that automated builds set. -/
def automationKeys : List Text :=
  ["CI", "GITHUB_ACTIONS", "JENKINS_HOME", "BUILDKITE", "CIRCLECI", "TRAVIS", "TEAMCITY_VERSION"]

/-- The capabilities of the terminal, or of what stands in its place.  A dumb terminal shows neither
    colours nor signs beyond ASCII. -/
def Terminal.detect (env : Environment) (isTty : Bool) : Terminal :=
  let dumb := ((env.lookup "TERM".toList).getD []).map Char.toLower == "dumb"
  { isTty := isTty
    colour := isTty && !dumb && (env.lookup "NO_COLOR".toList).isNone
    unicode := !dumb
    automated := automationKeys.any fun k => (env.lookup k).isSome }

/-- Lines are coloured under the mode. -/
def Terminal.colourEnabled (t : Terminal) : ColourMode → Bool
  | .never => false
  | .always => true
  | .auto => t.colour && !t.automated

end Typings
