import Typings.Path

/-!
# Maps keyed by places

A `PathMap` lists its entries in the order of their places, one for each place.  A key keeps the
spelling it came with, and a new value for the same place replaces the old one.

* `PathMap.insert`, `PathMap.erase`, `PathMap.get?`: the operations.
* `PathSet`: the map without values.

Places are compared component by component, so two spellings of a place are one key.  The order of the
entries is the order in which outputs are written and told, however they came up.
-/

namespace Typings

/-- Entries in the order of their places. -/
structure PathMap (α : Type) where
  entries : List (Path × α) := []
deriving Inhabited

namespace PathMap

variable {α β : Type}

/-- The map with no entries. -/
def empty : PathMap α := ⟨[]⟩

/-- Puts an entry in its place; an equal key keeps its spelling. -/
def insertEntry (p : Path) (v : α) : List (Path × α) → List (Path × α)
  | [] => [(p, v)]
  | (q, w) :: rest =>
    match p.compare q with
    | .lt => (p, v) :: (q, w) :: rest
    | .eq => (q, v) :: rest
    | .gt => (q, w) :: insertEntry p v rest

/-- The map with a value at a place. -/
def insert (m : PathMap α) (p : Path) (v : α) : PathMap α := ⟨insertEntry p v m.entries⟩

/-- The map without the entry at a place. -/
def erase (m : PathMap α) (p : Path) : PathMap α :=
  ⟨m.entries.filter fun (q, _) => !(q.same p)⟩

/-- The value at a place. -/
def get? (m : PathMap α) (p : Path) : Option α :=
  (m.entries.find? fun (q, _) => q.same p).map (·.2)

/-- There is an entry at the place. -/
def contains (m : PathMap α) (p : Path) : Bool := m.entries.any fun (q, _) => q.same p

/-- The places in order. -/
def keys (m : PathMap α) : List Path := m.entries.map (·.1)

/-- The values in the order of their places. -/
def values (m : PathMap α) : List α := m.entries.map (·.2)

/-- The number of entries. -/
def size (m : PathMap α) : Nat := m.entries.length

/-- There are no entries. -/
def isEmpty (m : PathMap α) : Bool := m.entries.isEmpty

/-- The map of some entries; the last of several at one place wins. -/
def ofList (entries : List (Path × α)) : PathMap α :=
  entries.foldl (fun m (p, v) => m.insert p v) empty

end PathMap

/-- A set of places in order. -/
abbrev PathSet := PathMap Unit

namespace PathSet

/-- The set with one more place. -/
def add (s : PathSet) (p : Path) : PathSet := s.insert p ()

/-- The set of some places. -/
def ofPaths (ps : List Path) : PathSet := PathMap.ofList (ps.map fun p => (p, ()))

end PathSet

end Typings
