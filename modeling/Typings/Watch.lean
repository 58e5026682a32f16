import Typings.Session
import Typings.Watch.Event

/-!
# Watching sources

Changed sources are taken by the session one after the other; if any was taken, it flushes once.
Failures are reported, and watching goes on.

* `Host.rebuild`: a flush with its report.
* `Host.applyChanges`: a round of changes.
* `Host.watchOnce`: everything up to the first wait for changes, and the end.

A change that fails is reported and counts as taken if the session had taken it before it failed.
Every event goes to the end of a list, in the order of the work, so a whole round can be read off its
result. `Proofs.Session.Rebuild` says that a round writes what a build from nothing would.
-/

namespace Typings.Host

variable {σ π : Type}

/-- A state of a session with the events of watching so far. -/
abbrev WatchM (σ π : Type) := StateM (Session σ π × List WatchEvent)

/-- Reports an event of watching. -/
def watched (e : WatchEvent) : WatchM σ π Unit := modify fun (s, es) => (s, es ++ [e])

/-- Runs a step of the session; a failure is a result. -/
def attempt {α : Type} (step : SessionM σ π α) : WatchM σ π (Except BuildError α) :=
  fun (s, es) =>
    match step s with
    | .ok a s => (.ok a, s, es)
    | .error e s => (.error e, s, es)

/-- The event for a failure. -/
def failed (e : BuildError) : WatchM σ π Unit := watched (.error e.message)

/-- Flushes the session and reports the result. -/
def rebuild (h : Host σ π) : WatchM σ π Unit := do
  watched .rebuildStarted
  match ← attempt h.writeBundle with
  | .ok (some report) => watched (.rebuildComplete report.fileCount 0)
  | .ok none => watched (.rebuildComplete 0 0)
  | .error e => failed e

/-- The session takes one change; tells whether it did. -/
def applyChange (h : Host σ π) (path : Path) : WatchM σ π Bool := do
  match ← attempt (h.invalidate path) with
  | .ok true =>
    watched (.fileChanged path.text)
    if let .error e ← attempt (h.transformSource path) then failed e
    return true
  | .ok false => return false
  | .error e =>
    failed e
    return false

/-- The session takes some changes; tells whether it took any. -/
def takeChanges (h : Host σ π) : List Path → WatchM σ π Bool
  | [] => return false
  | p :: ps => do
    let taken ← h.applyChange p
    let others ← h.takeChanges ps
    return taken || others

/-- Takes a round of changes, and flushes if any was taken; tells whether it did. -/
def applyChanges (h : Host σ π) (paths : List Path) : WatchM σ π Bool := do
  let taken ← h.takeChanges paths
  if taken then h.rebuild
  return taken

/-- The first build of a watched directory. -/
def firstBuild (h : Host σ π) : SessionM σ π Unit := do
  h.start
  let _ ← h.transformSources

/-- Builds, and ends without waiting for a change. -/
def watchOnce (h : Host σ π) (root : Path) : WatchM σ π (Except BuildError Unit) := do
  watched (.watchStarted root.text)
  match ← attempt h.firstBuild with
  | .error e => return .error e
  | .ok _ =>
    h.rebuild
    watched .shutdown
    return .ok ()

end Typings.Host
