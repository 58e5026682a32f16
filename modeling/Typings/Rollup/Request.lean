import Typings.Json.Value
import Typings.Path.Normal

/-!
# Rolling up an entry

All that an entry's declarations reach is put into one file by a tool of its own.

* `RollupRequest`: what the tool is asked for.
* `RollupRequest.configuration`: the tool's configuration.

A request holds the declaration to start from and the name of the result; the result lies directly in
the output directory. The tool is told where the project, its manifest and its compiler configuration
are, is kept from writing anything but that file, and is silent.
-/

namespace Typings

/-- What the tool is asked for. -/
structure RollupRequest where
  root : Path
  /-- The compiler configuration in use. -/
  configPath : Option Path
  /-- The compiler's options as they are written. -/
  compilerOptions : Json
  outDir : Path
  /-- The declaration to start from. -/
  entryPath : Path
  /-- The name of the result in the output directory. -/
  fileName : Text
  /-- The compiler to be used, if not the tool's own. -/
  libFolder : Option Path
  /-- The manifest of the package. -/
  packageJson : Option Path
  /-- The packages whose declarations are taken in. -/
  bundledPackages : List Text
deriving Inhabited

namespace RollupRequest

/-- Where the result is written. -/
def outputPath (r : RollupRequest) : Path := r.outDir.join ⟨r.fileName⟩

/-- An object of one flag. -/
def enabled (b : Bool) : Json := .ofFields [("enabled", .bool b)]

/-- Messages of a kind are not shown. -/
def silent : Json := .ofFields [("default", .ofFields [("logLevel", .string "none")])]

/-- How the tool runs the compiler. -/
def compiler (r : RollupRequest) : Json :=
  let overriding : Json := .ofFields
    [("$schema", .string "http://json.schemastore.org/tsconfig"),
      ("compilerOptions", r.compilerOptions)]
  let file : List (Text × Json) := match r.configPath with
    | some p => [("tsconfigFilePath", .string p.toSlash)]
    | none => []
  .ofFields (("overrideTsconfig", overriding) :: file)

/-- The tool's configuration. -/
def configuration (r : RollupRequest) : Json :=
  .ofFields
    [("projectFolder", .string r.root.toSlash),
      ("mainEntryPointFilePath", .string r.entryPath.toSlash),
      ("bundledPackages", .array (r.bundledPackages.map .string)),
      ("compiler", r.compiler),
      ("apiReport", .ofFields
        [("enabled", .bool false), ("reportFileName", .string "<unscopedPackageName>.api.md")]),
      ("docModel", enabled false),
      ("dtsRollup", .ofFields
        [("enabled", .bool true), ("publicTrimmedFilePath", .string r.outputPath.toSlash)]),
      ("tsdocMetadata", enabled false),
      ("messages", .ofFields
        [("compilerMessageReporting", silent), ("extractorMessageReporting", silent)])]

end RollupRequest

end Typings
