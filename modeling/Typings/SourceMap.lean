import Typings.Json.Decode
import Typings.Json.Printer
import Typings.Json.Reader
import Typings.Path.Normal

/-!
# Source maps

Only the sources of a map are interpreted: they are relative to the directory that the map was
written into, so a map that moves needs new ones.  Everything else is carried through.

* `SourceMap.Vlq.segment`: the fields of a segment of mappings.
* `SourceMap.parse?`, `SourceMap.render`: the map as text.
* `SourceMap.mapSources`: a change of every source.
* `rebaseSources?`: the map of a file that is copied from one directory to another.
* `Relocation`, `relocateSources?`: the map of an emitted file that is written elsewhere.
-/

/-! ## Base64 VLQ

A mappings segment writes each field as base64 digits of five bits, least significant first; a sixth
bit says that another digit follows, and the lowest bit of the value is its sign. -/

namespace Typings.SourceMap.Vlq

/-- The digits of base64. -/
def alphabet : Text := "ABCDEFGHIJKLMNOPQRSTUVWXYZabcdefghijklmnopqrstuvwxyz0123456789+/"

/-- The digit for the six bits of `n`. -/
def digit (n : Nat) : Char := alphabet.getD n 'A'

/-- The sign moves to the lowest bit.  The shift is that of a 64-bit word, so the least value loses
    its only bit. -/
def zigzag (v : Int64) : UInt64 :=
  if v < 0 then ((0 - v.toUInt64) <<< 1) ||| 1 else v.toUInt64 <<< 1

/-- The digits of a number, five bits each. -/
def digits (n : Nat) : Text :=
  if n < 32 then [digit n] else digit (n % 32 + 32) :: digits (n / 32)

/-- One field of a segment. -/
def field (v : Int64) : Text := digits (zigzag v).toNat

/-- A mappings segment is its fields in a row. -/
def segment (values : List Int64) : Text := values.flatMap field

end Typings.SourceMap.Vlq

/-! ## Maps -/

namespace Typings

/-- A source map. -/
structure SourceMap where
  version : Option Nat := none
  file : Option Text := none
  sourceRoot : Option Text := none
  sources : List Text
  mappings : Text := []
  /-- The fields with no meaning here, in key order. -/
  extra : List (Text × Json) := []

namespace SourceMap

open Json (fieldOr?)
open Json.Written

/-- The fields with a meaning of their own. -/
def declared : List Text := ["version", "file", "sourceRoot", "sources", "mappings"]

/-- A map from its text; nothing unless the text is an object with a list of sources. -/
def parse? (content : Text) : Option SourceMap := do
  let w ← Json.readWritten? content
  let fields ← w.keyed?
  guard (declaredOnce declared fields)
  let version ← fieldOr? fields "version" none (nullable? (natBelow? (Nat.pow 2 32)))
  let file ← fieldOr? fields "file" none (nullable? text?)
  let sourceRoot ← fieldOr? fields "sourceRoot" none (nullable? text?)
  let sources ← (fields.lookup "sources".toList).bind (list? text?)
  let mappings ← fieldOr? fields "mappings" [] text?
  let others := fields.filter fun f => !declared.contains f.1
  let extra ← others.mapM fun (k, v) => (v.value? (maxDepth - 1)).map (k, ·)
  pure { version, file, sourceRoot, sources, mappings, extra := Json.sortFields extra }

/-- The fields of a map in the order they are written; absent ones are left out. -/
def fields (m : SourceMap) : List (Text × Json) :=
  (m.version.toList.map fun n => ("version".toList, Json.ofNat n)) ++
    (m.file.toList.map fun s => ("file".toList, Json.string s)) ++
    (m.sourceRoot.toList.map fun s => ("sourceRoot".toList, Json.string s)) ++
    [("sources".toList, Json.array (m.sources.map .string)),
      ("mappings".toList, Json.string m.mappings)] ++ m.extra

/-- A map as text, on one line. -/
def render (m : SourceMap) : Text := (Json.object m.fields).compact

/-- The map with every source changed by `f`. -/
def mapSources (f : Text → Text) (m : SourceMap) : SourceMap :=
  { m with sources := m.sources.map f }

/-- A source seen from `dir` that was relative to `base`. -/
def moveSource (base dir : Path) (source : Text) : Text :=
  (dir.relative (base.resolve ⟨source⟩)).toSlash

end SourceMap

/-- The text of a map whose file moves from the directory `base` to `dir`; nothing for a text that is
    no map. -/
def rebaseSources? (content : Text) (base dir : Path) : Option Text :=
  (SourceMap.parse? content).map fun m => (m.mapSources (SourceMap.moveSource base dir)).render

/-- Where a recorded map came from and where it goes. -/
structure Relocation where
  /-- The directory emitted names are relative to. -/
  currentDir : Path
  /-- The directory records are anchored on. -/
  publicRoot : Path
  /-- The directory of the record. -/
  recordedDir : Path
  /-- The directory of the written file. -/
  finalDir : Path

/-- The directory a recorded map was emitted into. -/
def Relocation.emittedDir (r : Relocation) : Path :=
  r.currentDir.resolve (r.publicRoot.relative r.recordedDir)

/-- The text of a recorded map at its final place; nothing for a text that is no map. -/
def relocateSources? (content : Text) (r : Relocation) : Option Text :=
  rebaseSources? content r.emittedDir r.finalDir

end Typings
