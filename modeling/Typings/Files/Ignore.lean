import Typings.Files.Store
import Typings.Glob.Matcher

/-!
# Ignored files

Ignore files list what is to be passed over in their directory and below: one pattern on a line, of
which the last that matches counts, and a mark of exclamation that takes something back.

* `IgnoreLine.parse?`: the pattern of a line.
* `IgnoreFile.ofText`: the rules of a whole file.
* `IgnoreFile.verdict?`: what an ignore file says about a path.
* `isIgnored`: what all ignore files above a path say.
* `walk`: the files below a directory that are not ignored.
-/

namespace Typings.Files

/-- What an ignore file says about what matches a pattern. -/
structure IgnoreLine (pattern : Type) where
  pattern : pattern
  /-- What matches is taken back. -/
  kept : Bool
  /-- Only directories match. -/
  dirOnly : Bool

/-- A line of an ignore file, ready to be matched. -/
abbrev IgnoreRule := IgnoreLine Glob.Matcher

namespace IgnoreLine

/-- A line without the blanks behind it, unless the last one is escaped. -/
def trimLine (line : Text) : Text := if Text.endsWith line "\\ " then line else Text.trimEnd line

/-- The glob that a pattern stands for: a pattern without a slash matches at any depth, and one that
    ends in two stars only what is inside. -/
def globText (anchored : Bool) (pattern : Text) : Text :=
  let deep := if anchored || pattern.contains '/' || Text.startsWith pattern "**/" || pattern == "**"
    then pattern else "**/" ++ pattern
  if Text.endsWith deep "/**" then deep ++ "/*" else deep

/-- A pattern without a slash at its end. -/
def dropSlash (pattern : Text) : Text × Bool :=
  match List.isSuffixOf? "/" pattern with
  | some p => ((List.isSuffixOf? "\\" p).getD p, true)
  | none => (pattern, false)

/-- The pattern of a line, whether it takes back what matches, and whether it is anchored. -/
def openLine (line : Text) : Text × Bool × Bool :=
  match line with
  | '\\' :: '!' :: rest => ('!' :: rest, false, false)
  | '\\' :: '#' :: rest => ('#' :: rest, false, false)
  | '!' :: '/' :: rest => (rest, true, true)
  | '!' :: rest => (rest, true, false)
  | '/' :: rest => (rest, false, true)
  | _ => (line, false, false)

/-- The pattern of a line; comments, blank lines and what is no glob have none. -/
def parse? (line : Text) : Option (IgnoreLine (List Glob.Token)) :=
  let line := trimLine line
  if line.isEmpty || line.head? == some '#' then none
  else do
    let (pattern, kept, anchored) := openLine line
    let (pattern, dirOnly) := dropSlash pattern
    let tokens ← (Glob.parseLenient (globText anchored pattern)).toOption
    return ⟨tokens, kept, dirOnly⟩

/-- The rule of a line, if its glob can be matched. -/
def rule? (line : IgnoreLine (List Glob.Token)) : Option IgnoreRule :=
  (Glob.Matcher.withinNames line.pattern).toOption.map fun m => ⟨m, line.kept, line.dirOnly⟩

end IgnoreLine

/-- The rules of an ignore file in a directory. -/
structure IgnoreFile where
  dir : Path
  rules : List IgnoreRule

namespace IgnoreFile

/-- The rules of an ignore file from its text, which may start with byte order marks.  One glob that
    cannot be matched spoils all of them. -/
def ofText (dir : Path) (content : Text) : IgnoreFile :=
  let lines := Text.lines (content.dropWhile (· == '\uFEFF'))
  ⟨dir, ((lines.filterMap IgnoreLine.parse?).mapM IgnoreLine.rule?).getD []⟩

/-- What the file says about a path below its directory: ignored, kept, or nothing. -/
def verdict? (f : IgnoreFile) (p : Path) (isDir : Bool) : Option Bool :=
  let names := (p.components.drop f.dir.components.length).map Component.text
  let relative := List.intercalate "/" names
  let applies (r : IgnoreRule) : Bool := (isDir || !r.dirOnly) && r.pattern.isMatch relative
  (f.rules.reverse.find? applies).map fun r => !r.kept

end IgnoreFile

variable {σ : Type}

/-- What the ignore file of a name in a directory says. -/
def fileVerdict? (s : FileStore σ) (w : σ) (dir name p : Path) (isDir : Bool) : Option Bool :=
  match s.read w (dir.join name) with
  | .ok content => (IgnoreFile.ofText dir content).verdict? p isDir
  | .error _ => none

/-- The directory is the top of a repository. -/
def isRepository (s : FileStore σ) (w : σ) (dir : Path) : Bool := s.isThere w (dir.join ".git")

/-- The directories up to the top of the repository they are in; none outside of repositories. -/
def repositoryDirs (s : FileStore σ) (w : σ) : List Path → List Path
  | [] => []
  | dir :: rest =>
    if isRepository s w dir then [dir]
    else match repositoryDirs s w rest with
      | [] => []
      | dirs => dir :: dirs

/-- The path is passed over: of the ignore files above it the nearest that says anything counts, and
    those that hold in repositories only count after the others. -/
def isIgnored (s : FileStore σ) (w : σ) (p : Path) (isDir : Bool) : Bool :=
  let above := p.ancestors.tail
  let inRepository := repositoryDirs s w above
  let verdictOf (name : Path) (dirs : List Path) : Option Bool :=
    dirs.findSome? fun dir => fileVerdict? s w dir name p isDir
  let verdict := (verdictOf ".ignore" above).or
    ((verdictOf ".gitignore" inRepository).or (verdictOf ".git/info/exclude" inRepository))
  verdict.getD false

mutual

/-- The files below some entries that are not ignored. -/
def walkEntries (s : FileStore σ) (w : σ) (fuel : Nat) : List DirEntry → List Path
  | [] => []
  | e :: rest =>
    let here := if isIgnored s w e.path e.isDir then []
      else if e.isDir then walkWithin s w fuel e.path else [e.path]
    here ++ walkEntries s w fuel rest

/-- The files below a directory that are not ignored, at most `fuel` levels deep. -/
def walkWithin (s : FileStore σ) (w : σ) : Nat → Path → List Path
  | 0, _ => []
  | fuel + 1, dir =>
    match s.list w dir with
    | .ok entries => walkEntries s w fuel entries
    | .error _ => []

end

/-- The files below a place that are not ignored; the place itself is never passed over. -/
def walk (s : FileStore σ) (w : σ) (place : Path) : Except StoreError (List Path) :=
  match s.list w place with
  | .ok entries => .ok (walkEntries s w (s.depth w + 1) entries)
  | .error e => if s.isThere w place then .ok [place] else .error e

end Typings.Files
