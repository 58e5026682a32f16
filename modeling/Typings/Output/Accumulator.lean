import Typings.Path.Map

/-!
# Recorded outputs

Outputs are recorded under their place until a flush writes them, and stay recorded afterwards.  The
outputs of a source are dropped together when the source is gone, except those that another source
has recorded too.

* `Accumulator.record`, `Accumulator.recordFor`: record an output, for a source or for none.
* `Accumulator.forget`: drop the outputs of a source.
* `Accumulator.snapshot`: all outputs in the order of their places.

`Proofs.Output.Accumulator` gives the effect of each operation, and `Proofs.Output.Ownership` what any
sequence of them leaves.
-/

namespace Typings

/-- A file that waits to be written. -/
structure OutputFile where
  path : Path
  content : Text
deriving DecidableEq, Repr

/-- The recorded outputs with the sources that recorded them. -/
structure Accumulator where
  files : PathMap Text := {}
  owners : PathMap PathSet := {}
deriving Inhabited

namespace Accumulator

/-- Records an output; one at the same place is replaced. -/
def record (a : Accumulator) (path : Path) (content : Text) : Accumulator :=
  { a with files := a.files.insert path content }

/-- The places recorded for a source. -/
def owned (a : Accumulator) (source : Path) : PathSet := (a.owners.get? source).getD {}

/-- Records an output for a source. -/
def recordFor (a : Accumulator) (source path : Path) (content : Text) : Accumulator :=
  { files := a.files.insert path content
    owners := a.owners.insert source (PathSet.add (a.owned source) path) }

/-- The places that only the source has recorded, in order. -/
def dropped (a : Accumulator) (source : Path) : List Path :=
  let others := a.owners.erase source
  (a.owned source).keys.filter fun p =>
    !(others.values.any fun s => s.contains p) && a.files.contains p

/-- Without the outputs that only the source has recorded. -/
def forget (a : Accumulator) (source : Path) : Accumulator :=
  { files := (a.dropped source).foldl PathMap.erase a.files
    owners := a.owners.erase source }

/-- The content recorded at a place. -/
def get? (a : Accumulator) (path : Path) : Option Text := a.files.get? path

/-- All outputs in the order of their places. -/
def snapshot (a : Accumulator) : List OutputFile := a.files.entries.map fun (p, c) => ⟨p, c⟩

end Accumulator

end Typings
