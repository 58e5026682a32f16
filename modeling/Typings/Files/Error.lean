import Typings.Path

/-!
# Faults of file stores

* `SystemFault`: what the operating system reports.
* `StoreError`: why an operation on a store of files failed.

The system tells a fault without the path it concerns, so a store adds the path where there is nothing
there; `StoreError.unplaced` takes it away again for who reports what the system said. A store that is
held in memory has faults of its own, which name their path always.
-/

namespace Typings.Files

/-- What the operating system reports. -/
inductive SystemFault where
  | noEntry
  | exists
  | notDirectory
  | isDirectory
  | invalidArgument
  | notEmpty
  /-- The place is in use by the system itself. -/
  | busy
  /-- A path has a character that no path can have. -/
  | nulCharacter
  /-- The bytes of a file are no text. -/
  | notText
deriving DecidableEq, Repr

/-- The report in words. -/
def SystemFault.message : SystemFault → Text
  | .noEntry => "No such file or directory (os error 2)"
  | .exists => "File exists (os error 17)"
  | .notDirectory => "Not a directory (os error 20)"
  | .isDirectory => "Is a directory (os error 21)"
  | .invalidArgument => "Invalid argument (os error 22)"
  | .notEmpty => "Directory not empty (os error 39)"
  | .busy => "Device or resource busy (os error 16)"
  | .nulCharacter => "file name contained an unexpected NUL byte"
  | .notText => "stream did not contain valid UTF-8"

/-- Why an operation on a store failed. -/
inductive StoreError where
  /-- There is nothing at the path. -/
  | notFound (path : Path)
  /-- The path may not be touched. -/
  | denied (path : Path)
  /-- A directory that is to be removed has something in it. -/
  | occupied (path : Path)
  | system (fault : SystemFault)
deriving DecidableEq, Repr

/-- What the system reports about a path; that there is nothing there is told with the path. -/
def StoreError.ofFault (p : Path) : SystemFault → StoreError
  | .noEntry => .notFound p
  | fault => .system fault

/-- The same error as the system reports it, which names no path. -/
def StoreError.unplaced : StoreError → StoreError
  | .notFound _ => .system .noEntry
  | e => e

/-- The error in words. -/
def StoreError.message : StoreError → Text
  | .notFound p => "File not found: " ++ p.text
  | .denied p => "Permission denied: " ++ p.text
  | .occupied p => "directory not empty: " ++ p.text
  | .system f => "I/O error: " ++ f.message

end Typings.Files
