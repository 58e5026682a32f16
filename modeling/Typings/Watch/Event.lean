import Typings.Event

/-!
# Events of watching

* `WatchEvent`: what is reported while sources are watched.
* `WatchEvent.line`: an event for programs.

The events of the builds in between are reported by the sessions themselves. Each of these is an
object whose first field names its kind; the time that a rebuild took is no part of the model and is
always zero.
-/

namespace Typings

/-- What is reported while sources are watched. -/
inductive WatchEvent where
  | watchStarted (root : Text)
  | fileChanged (path : Text)
  | rebuildStarted
  | rebuildComplete (written millis : Nat)
  | error (message : Text)
  | shutdown
deriving DecidableEq, Repr

/-- An event as an object. -/
def WatchEvent.toJson : WatchEvent → Json
  | .watchStarted root => taggedObject "watch_started" [("root", .string root)]
  | .fileChanged path => taggedObject "file_changed" [("path", .string path)]
  | .rebuildStarted => taggedObject "rebuild_started" []
  | .rebuildComplete written millis =>
    taggedObject "rebuild_complete" [("written", .ofNat written), ("duration_ms", .ofNat millis)]
  | .error message => noticeJson "error" message
  | .shutdown => taggedObject "shutdown" []

/-- An event in one line. -/
def WatchEvent.line (e : WatchEvent) : Text := e.toJson.compact

end Typings
