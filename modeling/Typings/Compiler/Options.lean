import Typings.Json.Decode
import Typings.Path

/-!
# Compiler options

The options of the compiler that a build looks at.

They are read from a document, where an option that is left out has its default and other keys are
skipped. The document itself is kept beside them, because the tool that rolls up declarations is
handed the options as they were written.
-/

namespace Typings

/-- The options of the compiler that a build looks at. -/
structure CompilerOptions where
  rootDir : Option Path := none
  composite : Bool := false
  baseUrl : Option Path := none
  /-- Specifier patterns with their targets, in the order of the patterns. -/
  paths : List (Text × List Text) := []
  declarationMap : Bool := false
  outDir : Option Path := none
  /-- Scripts in JavaScript have no declarations. -/
  skipJavaScript : Bool := false
  /-- The file the options come from. -/
  configFile : Option Path := none
  /-- The options as they are written. -/
  raw : Json := .null
deriving Inhabited

namespace CompilerOptions

open Json (fieldOr?)
open Json.Written

/-- The names of the options in the order of a list of values. -/
def names : List Text :=
  ["rootDir", "composite", "baseUrl", "paths", "declarationMap", "outDir", "noEmitForJsFiles"]

/-- A path is a string. -/
def path? (w : Json.Written) : Option Path := w.text?.map Path.mk

/-- The options in a document; `raw` and the file are left open. -/
def ofWritten? (w : Json.Written) : Option CompilerOptions := do
  let fields ← record? names w
  let rootDir ← fieldOr? fields "rootDir" none (nullable? path?)
  let composite ← fieldOr? fields "composite" false bool?
  let baseUrl ← fieldOr? fields "baseUrl" none (nullable? path?)
  let paths ← fieldOr? fields "paths" [] (map? (list? text?))
  let declarationMap ← fieldOr? fields "declarationMap" false bool?
  let outDir ← fieldOr? fields "outDir" none (nullable? path?)
  let skipJavaScript ← fieldOr? fields "noEmitForJsFiles" false bool?
  pure { rootDir, composite, baseUrl, paths, declarationMap, outDir, skipJavaScript }

/-- The options in a value. -/
def ofJson? (j : Json) : Option CompilerOptions :=
  (ofWritten? j.toWritten).map fun o => { o with raw := j }

end CompilerOptions

end Typings
