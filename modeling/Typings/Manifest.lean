import Typings.Files.Store
import Typings.Json.Decode
import Typings.Json.Reader

/-!
# Package manifests

Of a package's manifest only the place of its types matters.

* `Manifest.parse?`, `Manifest.typesPath?`: the manifest and the place it names.
* `ManifestCache.find`: the manifest nearest to a directory; what has been found is kept.
* `ManifestCache.load`: the content of that manifest.

The fields are tried in one fixed order, and an empty one counts as absent. A search goes up from a
directory and is remembered for every directory it came through; `Proofs.Manifest` says that
remembering changes no answer as long as the manifests stay where they are.
-/

namespace Typings

/-- What a package publishes instead of its own fields. -/
structure PublishConfig where
  types : Option Text := none
  typings : Option Text := none
deriving Inhabited

/-- The parts of a package's manifest that say where its types are. -/
structure Manifest where
  types : Option Text := none
  typings : Option Text := none
  publish : Option PublishConfig := none
  exported : Option Json := none
deriving Inhabited

namespace Manifest

open Json (fieldOr?)
open Json.Written

/-- The name of a manifest. -/
def fileName : Text := "package.json"

/-- The published fields in a document. -/
def publish? (w : Json.Written) : Option PublishConfig := do
  let fields ← record? ["types", "typings"] w
  let types ← fieldOr? fields "types" none (nullable? text?)
  let typings ← fieldOr? fields "typings" none (nullable? text?)
  pure ⟨types, typings⟩

/-- The manifest in a document. -/
def ofWritten? (w : Json.Written) : Option Manifest := do
  let fields ← record? ["types", "typings", "publishConfig", "exports"] w
  let types ← fieldOr? fields "types" none (nullable? text?)
  let typings ← fieldOr? fields "typings" none (nullable? text?)
  let publish ← fieldOr? fields "publishConfig" none (nullable? publish?)
  let exported ← fieldOr? fields "exports" none (nullable? (value? (maxDepth - 1)))
  pure ⟨types, typings, publish, exported⟩

/-- A manifest from its text. -/
def parse? (content : Text) : Option Manifest := (Json.readWritten? content).bind ofWritten?

/-- The types among the exports of the package itself. -/
def exportedTypes? (exported : Json) : Option Text := do
  let root ← (exported.field? ".").or (exported.field? "./")
  let types ← root.field? "types"
  types.text?

/-- The place of the types: the first field that names one. -/
def typesPath? (m : Manifest) : Option Text :=
  [m.types, m.typings, m.publish.bind (·.types), m.publish.bind (·.typings),
    m.exported.bind exportedTypes?].findSome? fun t => t.filter fun u => !u.isEmpty

end Manifest

/-- Directories with the manifests that were found for them. -/
structure ManifestCache where
  found : PathMap (Option Path) := {}
deriving Inhabited

namespace ManifestCache

/-- The directories above that are asked after `dir`. -/
def climb? (dir : Path) : Option Path := dir.parent?.filter fun p => !p.text.isEmpty

/-- Climbs from `dir` to the first directory that is known or has a manifest; gives what it found and
    the directories it came through.  Each parent is shorter, so the length of the path is fuel
    enough. -/
def search (c : ManifestCache) (isThere : Path → Bool) : Nat → Path → Option Path × List Path
  | 0, _ => (none, [])
  | fuel + 1, dir =>
    match c.found.get? dir with
    | some known => (known, [])
    | none =>
      let candidate := dir.join ⟨Manifest.fileName⟩
      if isThere candidate then (some candidate, [dir])
      else match climb? dir with
        | some up =>
          let (found, visited) := search c isThere fuel up
          (found, dir :: visited)
        | none => (none, [dir])

/-- The manifest nearest to a directory, and the cache that knows it for all directories passed. -/
def find (c : ManifestCache) (isThere : Path → Bool) (start : Path) : Option Path × ManifestCache :=
  let (found, visited) := c.search isThere (start.text.length + 1) start
  (found, ⟨visited.foldl (fun m d => m.insert d found) c.found⟩)

/-- The manifest nearest to a directory; one that is missing or cannot be read is empty. -/
def load {σ : Type} (c : ManifestCache) (files : Files.FileStore σ) (world : σ) (start : Path) :
    Manifest × ManifestCache :=
  let (found, c) := c.find (files.isThere world) start
  let content := found.bind fun p => (files.read world p).toOption
  ((content.bind Manifest.parse?).getD {}, c)

end ManifestCache

end Typings
