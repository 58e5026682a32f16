import Typings.Library.Index
import Typings.Output.Writer

/-!
# Writing root files

A root file is written unless there is a file in its place already.

* `RootFiles`: what root files are made for.
* `RootFiles.typesPath`: where the types of the package are.
* `RootFiles.insert`: writes the missing root files.

The types of the package are where the manifest nearest to the root says, and below the output
directory if it says nothing. What stands in the place of a root file stays: the check is made when
the file would be written, so a root file that an earlier flush has written stays as well.
-/

namespace Typings

/-- What root files are made for. -/
structure RootFiles where
  root : Path
  entryRoot : Path
  entries : List Entry
  indexName : Text
  /-- What a default export is bound to. -/
  libraryName : Text

namespace RootFiles

variable {σ : Type}

/-- Where the types of the package are: as its manifest says, or in the output directory. -/
def typesPath (r : RootFiles) (w : Writer σ) : WorkM σ Path := do
  let bench ← get
  let (manifest, manifests) := bench.manifests.load w.files bench.world r.root
  set { bench with manifests }
  return match manifest.typesPath? with
    | some types => r.root.resolve ⟨types⟩
    | none => w.outDir.join ⟨r.indexName⟩

/-- The name that a root file binds the default export of a declaration to, if it has one. -/
def defaultName (r : RootFiles) (w : Writer σ) (world : σ) (declaration : Path) : Option Text :=
  match w.files.read world declaration with
  | .ok text => if hasDefaultExport text then some r.libraryName else none
  | .error _ => none

/-- Writes the root files of some plans; gives all files written so far. -/
def insertPlans (r : RootFiles) (w : Writer σ) (emitted : PathMap Text) :
    List IndexPlan → WorkM σ (PathMap Text)
  | [] => return emitted
  | plan :: plans => do
    let world ← WorkM.world
    if w.files.isThere world plan.target then r.insertPlans w emitted plans
    else
      let content := indexContent plan.importPath (r.defaultName w world plan.declaration)
      match ← w.write ⟨plan.target, content⟩ with
      | some f => r.insertPlans w (emitted.insert f.path f.content) plans
      | none => r.insertPlans w emitted plans

/-- Writes the missing root files; gives the place of the types and all files written so far. -/
def insert (r : RootFiles) (w : Writer σ) (emitted : PathMap Text) :
    WorkM σ (Path × PathMap Text) := do
  let types ← r.typesPath w
  let emitted ← r.insertPlans w emitted (planIndexFiles r.entries types w.outDir r.entryRoot)
  return (types, emitted)

end RootFiles

end Typings
