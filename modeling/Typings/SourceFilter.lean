import Typings.Error
import Typings.Glob.Matcher
import Typings.Path.Normal

/-!
# Source filters

A filter tells which files below a root are sources of a build: those that a glob includes and none
excludes.  A glob that names a directory stands for everything below it.

* `widenGlob`: the glob a written one stands for.
* `SourceFilter.ofGlobs`: a filter from its globs.
* `SourceFilter.accepts`: membership.

A path is seen from the root and matched there; one that lies outside is never a source.  A written
glob without an extension in its last name stands for what is below a directory of that name, so `src`
and `src/` say the same as `src/**`.
-/

namespace Typings

/-- The glob a written one stands for: a directory name means all that is below it. -/
def widenGlob (glob : Text) : Text :=
  if glob.endsWith "/" || glob.endsWith "\\" then glob ++ "**"
  else
    let last : Text := (glob.reverse.takeWhile fun c => !(c == '/' || c == '\\')).reverse
    let hasExtension := match last.cutLast? '.' with
      | some (_, ext) => !ext.isEmpty
      | none => false
    let allStars := !last.isEmpty && last.all (· == '*')
    if hasExtension || allStars then glob else glob ++ "/**"

/-- Without any `./` in front. -/
def dropDotSlash : Text → Text
  | '.' :: '/' :: t => dropDotSlash t
  | t => t

/-- Which files below a root are sources. -/
structure SourceFilter where
  root : Path
  included : List Glob.Matcher
  excluded : List Glob.Matcher

namespace SourceFilter

/-- The matchers of some globs.  A glob that cannot be read is named alone; one that cannot be
    matched is found when all have been read, and then all are named. -/
def matchers (globs : List Text) : Except BuildError (List Glob.Matcher) := do
  let tokens ← globs.mapM fun g =>
    match Glob.parse (widenGlob (dropDotSlash g)) with
    | .ok ts => Except.ok ts
    | .error f => .error (BuildError.pattern g f.message)
  match tokens.mapM Glob.Matcher.ofTokens with
  | .ok ms => return ms
  | .error f => throw (.pattern (List.intercalate ", " globs) f.message)

/-- A filter from the globs it includes and excludes. -/
def ofGlobs (root : Path) (includes excludes : List Text) : Except BuildError SourceFilter := do
  let includes ← matchers includes
  let excludes ← matchers excludes
  return ⟨root.normalize, includes, excludes⟩

/-- Everything is included by default. -/
def defaultInclude : List Text := ["**/*"]

/-- Installed packages are excluded by default. -/
def defaultExclude : List Text := ["node_modules/**"]

/-- A path, seen from the root if it is relative, is a source. -/
def accepts (f : SourceFilter) (p : Path) : Bool :=
  let absolute := f.root.resolve p
  absolute.isWithin f.root &&
    let relative := (f.root.relative absolute).toSlash
    f.included.any (·.isMatch relative) && !f.excluded.any (·.isMatch relative)

end SourceFilter

end Typings
