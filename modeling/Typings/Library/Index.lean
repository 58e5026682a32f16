import Typings.Path.Normal
import Typings.ScriptName

/-!
# Library entries and their root files

Users of a library import its entries.  A root file re-exports the declaration of an entry, so that users
find it where the package says.

* `Entry`: a source that users of the library import; `Entry.ofPath`: one named after its file.
* `Entry.emittedDeclaration`: where the declaration of an entry is written.
* `planIndexFiles`: the root file of each entry.
* `indexContent`: the text of a root file.
* `hasDefaultExport`: whether a declaration has a default to re-export.

A root file reaches its declaration by a relative specifier, so it can be moved together with it.
`Proofs.Library.Imports` says that the specifier leads back to the declaration.
-/

namespace Typings

/-- A source that users of the library import. -/
structure Entry where
  name : Text
  source : Path
deriving DecidableEq, Repr, Inhabited

namespace Entry

/-- An entry named after its file, seen from the root. -/
def ofPath (root p : Path) : Entry := ⟨p.fileName?.getD [], root.resolve p⟩

/-- The name of the entry's root file when there are several entries. -/
def declarationFileName (e : Entry) : Text := ScriptName.stripTypeScript e.name ++ ".d.ts"

/-- Where the declaration of the entry is written: as it lies below the entry root, so below the
    output directory. -/
def emittedDeclaration (e : Entry) (entryRoot outDir : Path) : Path :=
  outDir.resolve (entryRoot.relative ⟨ScriptName.stripTypeScript e.source.toSlash ++ ".d.ts"⟩)

end Entry

/-- A root file to be written. -/
structure IndexPlan where
  target : Path
  /-- The entry's own declaration. -/
  declaration : Path
  /-- The specifier of the declaration in the target. -/
  importPath : Text
deriving DecidableEq, Repr

/-- The specifier of `declaration` in the file `target`. -/
def importPath (target declaration : Path) : Text :=
  dotRelative (ScriptName.stripDeclaration (target.parentDir.relative declaration).toSlash)

/-- The root file of an entry: a single entry has the package's types, one of several a file of its
    own. -/
def indexTarget (several : Bool) (typesPath outDir : Path) (e : Entry) : Path :=
  if several then outDir.join ⟨e.declarationFileName⟩ else typesPath

/-- The root file of each entry. -/
def planIndexFiles (entries : List Entry) (typesPath outDir entryRoot : Path) : List IndexPlan :=
  entries.map fun e =>
    let target := indexTarget (entries.length > 1) typesPath outDir e
    let declaration := e.emittedDeclaration entryRoot outDir
    ⟨target, declaration, importPath target declaration⟩

/-- The text of a root file; `defaultName` is given when there is a default to re-export. -/
def indexContent (path : Text) (defaultName : Option Text) : Text :=
  let all := "export * from '" ++ path ++ "'\n"
  match defaultName with
  | some name => all ++ "import " ++ name ++ " from '" ++ path ++ "'\nexport default " ++ name ++ "\n"
  | none => all

/-- The text has a default export. -/
def hasDefaultExport (declaration : Text) : Bool := declaration.hasInfix "export default"

end Typings
