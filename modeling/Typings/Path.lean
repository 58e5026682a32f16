import Typings.Text

/-!
# `Path`: slash-separated locations

A path is kept as it is spelled; what it means is its list of components.  Two spellings with the
same components are the same place, and `..` is never folded by comparison.

* `Path.components`: repeated slashes, a trailing slash and inner `.` parts do not count; a leading
  `.` of a relative path does.
* `Path.join`, `Path.parent?`, `Path.fileName?`, `Path.extension?`: the usual operations.
* `Path.ofComponents`: the plain spelling of a list of components.
* `Path.compare`, `Path.isPrefixOf`: order and prefix, component by component.

Nothing here looks at a disk, and nothing folds: what `..` leads to is known only where a base is
given, which is the part of `Path.Normal`.
-/

namespace Typings

/-- One step of a path. -/
inductive Component where
  /-- The top of the file tree. -/
  | root
  /-- A leading `.`. -/
  | current
  /-- One `..`. -/
  | parent
  /-- A named file or directory. -/
  | name (text : Text)
deriving DecidableEq, Repr

namespace Component

/-- The spelling of one component. -/
def text : Component → Text
  | .root => "/"
  | .current => "."
  | .parent => ".."
  | .name t => t

/-- The rank of a component's kind: the root first, then `.`, `..` and names. -/
def rank : Component → Nat
  | .root => 0
  | .current => 1
  | .parent => 2
  | .name _ => 3

/-- Components are ordered by kind, names by code points. -/
def compare : Component → Component → Ordering
  | .name s, .name t => Text.compare s t
  | a, b => Ord.compare a.rank b.rank

end Component

/-- A location, kept as it is spelled. -/
structure Path where
  /-- The spelling. -/
  text : Text
deriving DecidableEq, Repr

namespace Path

instance : Inhabited Path := ⟨⟨[]⟩⟩

instance : Coe String Path := ⟨fun s => ⟨s.toList⟩⟩

/-- The path with no components. -/
def empty : Path := ⟨[]⟩

/-- The path as a string, for printing. -/
def toString (p : Path) : String := p.text.toString

/-- A path is absolute when it starts at the root. -/
def isAbsolute (p : Path) : Bool := p.text.head? == some '/'

/-- The component a piece between slashes stands for: none for an empty piece and for `.`. -/
def pieceComponent? (piece : Text) : Option Component :=
  if piece.isEmpty || piece == "." then none
  else if piece == ".." then some .parent
  else some (.name piece)

/-- The components of a path. -/
def components (p : Path) : List Component :=
  let pieces := List.splitOn '/' p.text
  let body := pieces.filterMap pieceComponent?
  if p.isAbsolute then .root :: body
  else if pieces.head? == some "." then .current :: body
  else body

/-- Two spellings of the same place. -/
def same (p q : Path) : Bool := p.components == q.components

/-- Places are ordered component by component. -/
def compare (p q : Path) : Ordering := go p.components q.components
where
  /-- Lexicographic order of component lists. -/
  go : List Component → List Component → Ordering
    | [], [] => .eq
    | [], _ :: _ => .lt
    | _ :: _, [] => .gt
    | a :: s, b :: t => (a.compare b).then (go s t)

/-- The place `p` is `dir` or lies below it, as spelled. -/
def startsWith (p dir : Path) : Bool := dir.components.isPrefixOf p.components

/-- `q` seen from `p`: an absolute `q` stands for itself. -/
def join (p q : Path) : Path :=
  if q.isAbsolute then q
  else if p.text.isEmpty || p.text.getLast? == some '/' then ⟨p.text ++ q.text⟩
  else ⟨p.text ++ "/" ++ q.text⟩

/-- The plain spelling of components: one slash between two names, none doubled after the root. -/
def ofComponents (cs : List Component) : Path := cs.foldl (fun p c => p.join ⟨c.text⟩) empty

/-! ## Parents and file names -/

/-- Drops the pieces at the end that stand for no component; the first piece of a relative path
    counts when it is `.`. -/
def dropSilent (leading : Bool) : List Text → List Text
  | [] => []
  | [piece] =>
    if piece == "." && leading then [piece]
    else if (pieceComponent? piece).isNone then [] else [piece]
  | piece :: rest =>
    if (pieceComponent? piece).isNone then dropSilent leading rest else piece :: rest

/-- The path without its last component; the root and the empty path have no parent. -/
def parent? (p : Path) : Option Path :=
  let absolute := p.isAbsolute
  let body := if absolute then p.text.drop 1 else p.text
  -- Pieces from the last to the first, so that the end of the path is at hand.
  match dropSilent (!absolute) (List.splitOn '/' body).reverse with
  | [] => none
  | _ :: front =>
    let kept := List.intercalate ['/'] (dropSilent (!absolute) front).reverse
    some ⟨if absolute then '/' :: kept else kept⟩

/-- The parent, or the empty path where there is none. -/
def parentDir (p : Path) : Path := p.parent?.getD empty

/-- The last component, if it is a name. -/
def fileName? (p : Path) : Option Text :=
  match p.components.getLast? with
  | some (.name t) => some t
  | _ => none

/-- What follows the last dot of the file name; a dot in front starts no extension. -/
def extension? (p : Path) : Option Text :=
  match p.fileName?.bind (Text.cutLast? '.') with
  | some (stem, ext) => if stem.isEmpty then none else some ext
  | none => none

/-- A path whose extension is `map`. -/
def isSourceMap (p : Path) : Bool := p.extension? == some "map"

/-- The spelling with every backslash turned into a slash. -/
def toSlash (p : Path) : Text := Text.replaceChar '\\' '/' p.text

/-- The path followed by more characters in its last name. -/
def append (p : Path) (suffix : Text) : Path := ⟨p.text ++ suffix⟩

/-- The path and every place above it, nearest first. -/
def ancestors (p : Path) : List Path := go (p.text.length + 1) p
where
  /-- Climbs at most `fuel` times; each parent is shorter than its child, so the length suffices. -/
  go : Nat → Path → List Path
    | 0, q => [q]
    | fuel + 1, q => q :: match q.parent? with
      | some up => go fuel up
      | none => []

end Path

end Typings
