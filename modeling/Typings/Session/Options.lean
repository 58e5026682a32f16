import Typings.Alias
import Typings.Library.Index
import Typings.LibraryName
import Typings.SourceFilter

/-!
# What a build is asked for

* `LibraryOptions`: the library that is built, if one is.
* `BuildOptions`: all that a session is set up with; `BuildOptions.ofRoot` gives the defaults.

The first output directory is written to and the others get copies of what was written there. What is
not set has its default here and nowhere else: everything below the root but installed packages is a
source, imports for effects are dropped, and nothing is written outside of the output directory.
-/

namespace Typings

/-- The name of the root file if nothing else is said. -/
def defaultIndexName : Text := "index.d.ts"

/-- The output directory if nothing else is said. -/
def defaultOutDir : Path := "dist"

/-- The library that is built. -/
structure LibraryOptions where
  name : Text
  entries : List Entry
  /-- The name of the root file; its declaration name counts. -/
  fileName : Text := defaultIndexName
deriving Inhabited

/-- All that a session is set up with. -/
structure BuildOptions where
  root : Path
  /-- Outputs lie below the output directory as their sources lie below this directory; the public
      root if there is none. -/
  entryRoot : Option Path := none
  /-- The first directory is written to, the others get copies. -/
  outDirs : List Path := [root.join defaultOutDir]
  library : Option LibraryOptions := none
  aliases : List Alias.Rule := []
  aliasExclusions : List Alias.Exclusion := []
  included : List Text := SourceFilter.defaultInclude
  excluded : List Text := SourceFilter.defaultExclude
  /-- Inline type references become imports. -/
  staticImport : Bool := false
  /-- Imports for effects alone are dropped. -/
  clearSideEffects : Bool := true
  /-- Declarations of components drop the component's extension. -/
  cleanComponents : Bool := false
  /-- Root files are written. -/
  insertTypesEntry : Bool := false
  /-- The declarations of each entry are rolled up into one file. -/
  rollupTypes : Bool := false
  /-- The compiler's `paths` count as aliases. -/
  pathsToAliases : Bool := true
  /-- Declarations among the sources are copied. -/
  copyDeclarations : Bool := false
  /-- Nothing is written outside of the output directory. -/
  strictOutput : Bool := true
  /-- The packages that a rollup takes in. -/
  bundledPackages : List Text := []
deriving Inhabited

namespace BuildOptions

/-- The options of a project of which only the root is known. -/
def ofRoot (root : Path) : BuildOptions := { root }

/-- The directory that is written to. -/
def outDir (o : BuildOptions) : Path := o.outDirs.headD o.root

/-- The entries of the library. -/
def entries (o : BuildOptions) : List Entry :=
  match o.library with
  | some l => l.entries
  | none => []

/-- The name of the library. -/
def libraryName (o : BuildOptions) : Text :=
  match o.library with
  | some l => if l.name.isEmpty then LibraryName.fallback else l.name
  | none => LibraryName.fallback

/-- The name of the root file. -/
def indexName (o : BuildOptions) : Text :=
  match o.library with
  | some l => ScriptName.declarationName l.fileName
  | none => defaultIndexName

/-- Inline type references are consolidated for static imports and for rollups. -/
def consolidate (o : BuildOptions) : Bool := o.staticImport || o.rollupTypes

end BuildOptions

end Typings
