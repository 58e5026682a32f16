import Typings.Path.Normal

/-!
# The public root

The public root of a set of sources is the deepest directory that holds all of them.

* `commonPrefix`: what two lists of components begin with.
* `sharedDir`: the deepest directory above some directories, taken one by one.
* `publicRoot`: the deepest directory above some files.

Directories are compared component by component, so `/src-extra` does not lie in `/src`. One pass over
the files is enough: the directory shared so far is cut back to what it has in common with the next.
`Proofs.PublicRoot` says that the result holds every file and that no deeper directory does.
-/

namespace Typings

/-- The common beginning of two component lists. -/
def commonPrefix : List Component → List Component → List Component
  | a :: s, b :: t => if a == b then a :: commonPrefix s t else []
  | _, _ => []

/-- The deepest directory above `root` and the directories that follow.  One that lies below `root`
    changes nothing, and where nothing is shared there is no need to look further. -/
def sharedDir (root : Path) : List Path → Path
  | [] => root
  | dir :: dirs =>
    if dir.startsWith root then sharedDir root dirs
    else
      let shared := Path.ofComponents (commonPrefix root.components dir.components)
      if shared.text.isEmpty then shared else sharedDir shared dirs

/-- The deepest directory above every file; no files have the empty path. -/
def publicRoot (files : List Path) : Path :=
  match files.map fun f => f.parentDir.normalize with
  | [] => Path.empty
  | dir :: dirs => sharedDir dir dirs

end Typings
