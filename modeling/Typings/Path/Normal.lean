import Typings.Path

/-!
# Normal paths

Declarations are placed and compared without looking at a disk, so `.` and `..` are folded in the
text alone.

* `Path.normalize`: the plain spelling after folding; `..` at the root disappears, in front of a
  relative path it stays.
* `Path.resolve`: a path anchored on a base directory.
* `Path.relative`: the way from one directory to a place.
* `Path.isWithin`: containment after folding.
* `dotRelative`: a specifier that is explicitly relative.
-/

namespace Typings

namespace Path

/-- One component onto the folded components, innermost first. -/
def foldComponent (stack : List Component) : Component → List Component
  | .root => [.root]
  | .current => stack
  | .parent =>
    match stack with
    | .name _ :: rest => rest
    | .root :: _ => stack
    | _ => .parent :: stack
  | .name n => .name n :: stack

/-- The components left after folding `.` and `..`. -/
def folded (cs : List Component) : List Component := (cs.foldl foldComponent []).reverse

/-- The plain spelling of the folded path. -/
def normalize (p : Path) : Path := ofComponents (folded p.components)

/-- `p` seen from the directory `base`, folded. -/
def resolve (base p : Path) : Path :=
  if p.isAbsolute then p.normalize else (base.join p).normalize

/-- The components left of two lists after their common beginning. -/
def dropCommon : List Component → List Component → List Component × List Component
  | a :: s, b :: t => if a == b then dropCommon s t else (a :: s, b :: t)
  | s, t => (s, t)

/-- The way from folded `base` to folded `target`: up from what only `base` has, down to what only
    `target` has.  There is none from a relative place to be left by an unknown name, nor from an
    absolute place to a relative one. -/
def difference? (target base : Path) : Option Path :=
  match target.isAbsolute, base.isAbsolute with
  | true, false => some target
  | false, true => none
  | _, _ =>
    match dropCommon target.components base.components with
    | (down, []) => some (ofComponents down)
    | ([], up) => some (ofComponents (up.map fun _ => .parent))
    | (_ :: _, .parent :: _) => none
    | (down, up) => some (ofComponents ((up.map fun _ => .parent) ++ down))

/-- The way from the directory `base` to `target`; where there is none, `target` itself. -/
def relative (base target : Path) : Path :=
  (difference? target.normalize base.normalize).getD target.normalize

/-- `p` is the directory `dir` or lies inside it. -/
def isWithin (p dir : Path) : Bool := p.normalize.startsWith dir.normalize

end Path

/-- A specifier that starts with a dot segment; the empty one is `.`. -/
def dotRelative (specifier : Text) : Text :=
  if specifier.isEmpty then "."
  else if specifier == "." || specifier == ".." || specifier.startsWith "./" ||
      specifier.startsWith "../" then specifier
  else "./" ++ specifier

end Typings
