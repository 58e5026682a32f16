import Typings.Configuration.Options
import Typings.Configuration.Reader

/-!
# Configurations of projects

* `Configuration.load`: the settings in a file; a project without one has the defaults.

A configuration comes from a document, is changed by environment variables, and becomes the options of
a build together with the configuration of the compiler. Each of these steps is a module of its own. A
key that is no setting does not stop the reading: it is given back, so that it can be reported.
-/

namespace Typings

/-- The settings in a file, and its unknown keys; where there is no file, the defaults. -/
def Configuration.load {σ : Type} (files : Files.FileStore σ) (world : σ) (path : Path) :
    Except BuildError (Configuration × List UnknownKey) :=
  if files.isThere world path then
    match files.read world path with
    | .ok content => parse path content
    | .error e => .error (.files e.unplaced)
  else .ok ({}, [])

end Typings
