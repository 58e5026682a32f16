import Typings.Configuration.Basic
import Typings.EditDistance
import Typings.Error
import Typings.Toml.Decode
import Typings.Toml.Reader

/-!
# Reading configurations

* `Configuration.ofToml?`: the settings in a document.
* `UnknownKey`: a key that is no setting, and the setting that may have been meant.
* `Configuration.parse`: the settings in a text, with its unknown keys.

A setting that cannot be understood is an error of the whole document. A key that is unknown is not:
it is reported with the line it stands on and, if a known name is near enough, with that name.
`Proofs.EditDistance` says which name that is.
-/

namespace Typings

open Toml (fieldOr? field? record? list? map?)

/-! ## Settings -/

/-- A path. -/
def Toml.path? (v : Toml) : Option Path := v.text?.map Path.mk

/-- One text or a list of texts. -/
def OneOrMany.ofToml? : Toml → Option OneOrMany
  | .string s => some (.one s)
  | v => (list? Toml.text? v).map .many

/-- The entries of a library. -/
def EntrySetting.ofToml? : Toml → Option EntrySetting
  | .string s => some (.single s)
  | v => (list? Toml.text? v).map .list <|> (map? Toml.text? v).map .named

/-- The fields of a library. -/
def LibrarySetting.names : List Text := ["name", "entry", "file_name"]

/-- A library. -/
def LibrarySetting.ofToml? (v : Toml) : Option LibrarySetting := do
  let fields ← record? names v
  let name ← fieldOr? fields "name" none fun w => w.text?.map some
  let entry ← field? fields "entry" EntrySetting.ofToml?
  let fileName ← fieldOr? fields "file_name" none fun w => w.text?.map some
  pure { name, entry, fileName }

/-- The fields of an alias. -/
def AliasSetting.names : List Text := ["find", "pattern", "replacement"]

/-- An alias. -/
def AliasSetting.ofToml? (v : Toml) : Option AliasSetting := do
  let fields ← record? names v
  let find ← fieldOr? fields "find" none fun w => w.text?.map some
  let pattern ← fieldOr? fields "pattern" none fun w => w.text?.map some
  let replacement ← field? fields "replacement" Toml.text?
  pure { find, pattern, replacement }

/-- The fields of the compiler's settings. -/
def compilerNames : List Text := ["command"]

/-- The command of the compiler. -/
def compilerOfToml? (default : List Text) (v : Toml) : Option (List Text) := do
  fieldOr? (← record? compilerNames v) "command" default (list? Toml.text?)

/-- The fields of the rollup's settings. -/
def RollupSetting.names : List Text := ["command", "bundled_packages"]

/-- The settings of the rollup. -/
def RollupSetting.ofToml? (v : Toml) : Option RollupSetting := do
  let fields ← record? names v
  let d : RollupSetting := {}
  let command ← fieldOr? fields "command" d.command (list? Toml.text?)
  let bundledPackages ← fieldOr? fields "bundled_packages" d.bundledPackages (list? Toml.text?)
  pure { command, bundledPackages }

/-- The fields of the output's settings. -/
def outputNames : List Text := ["verbosity", "color"]

/-- The settings of the output. -/
def outputOfToml? (v : Toml) : Option (Verbosity × ColourMode) := do
  let fields ← record? outputNames v
  let verbosity ← fieldOr? fields "verbosity" .normal fun w => w.variant?.bind Verbosity.ofName?
  let colour ← fieldOr? fields "color" .auto fun w => w.variant?.bind ColourMode.ofName?
  pure (verbosity, colour)

namespace Configuration

/-- The names of records without records in them. -/
def flatShape (names : List Text) : Toml.Shape := .record (names.map (·, .plain))

/-- The settings that have no settings inside of them. -/
def plainNames : List Text :=
  ["root", "tsconfig", "entry_root", "out_dir", "include", "exclude", "static_import",
    "clear_pure_import", "clean_vue_file_name", "insert_types_entry", "rollup_types",
    "paths_to_aliases", "copy_dts_files", "strict_output", "aliases_exclude",
    "aliases_exclude_patterns"]

/-- The settings with settings inside of them. -/
def nestedShapes : List (Text × Toml.Shape) :=
  [("lib", flatShape LibrarySetting.names), ("alias", .list (flatShape AliasSetting.names)),
    ("compiler", flatShape compilerNames), ("rollup", flatShape RollupSetting.names),
    ("output", flatShape outputNames)]

/-- All settings in their order. -/
def fieldShapes : List (Text × Toml.Shape) := plainNames.map (·, .plain) ++ nestedShapes

/-- The settings in a document. -/
def ofToml? (v : Toml) : Option Configuration := do
  let d : Configuration := {}
  let fields ← record? (fieldShapes.map (·.1)) v
  let path (name : String) := fieldOr? fields name none fun w => w.path?.map some
  let texts (name : String) := fieldOr? fields name none fun w => (OneOrMany.ofToml? w).map some
  let flag (name : String) (default : Bool) := fieldOr? fields name default Toml.bool?
  let list (name : String) := fieldOr? fields name [] (list? Toml.text?)
  let (verbosity, colour) ← fieldOr? fields "output" (d.verbosity, d.colour) outputOfToml?
  pure {
    root := ← path "root"
    tsConfig := ← path "tsconfig"
    entryRoot := ← path "entry_root"
    outDir := ← texts "out_dir"
    included := ← texts "include"
    excluded := ← texts "exclude"
    staticImport := ← flag "static_import" d.staticImport
    clearSideEffects := ← flag "clear_pure_import" d.clearSideEffects
    cleanComponents := ← flag "clean_vue_file_name" d.cleanComponents
    insertTypesEntry := ← flag "insert_types_entry" d.insertTypesEntry
    rollupTypes := ← flag "rollup_types" d.rollupTypes
    pathsToAliases := ← flag "paths_to_aliases" d.pathsToAliases
    copyDeclarations := ← flag "copy_dts_files" d.copyDeclarations
    strictOutput := ← flag "strict_output" d.strictOutput
    aliasExclusions := ← list "aliases_exclude"
    aliasExclusionPatterns := ← list "aliases_exclude_patterns"
    library := ← fieldOr? fields "lib" none fun w => (LibrarySetting.ofToml? w).map some
    aliases := ← fieldOr? fields "alias" [] (list? AliasSetting.ofToml?)
    compilerCommand := ←
      fieldOr? fields "compiler" d.compilerCommand (compilerOfToml? d.compilerCommand)
    rollup := ← fieldOr? fields "rollup" d.rollup RollupSetting.ofToml?
    verbosity := verbosity
    colour := colour }

end Configuration

/-! ## Unknown keys -/

/-- A key that is no setting. -/
structure UnknownKey where
  key : Text
  file : Path
  /-- The number of the first line that has the key in it. -/
  line : Option Nat
  /-- The setting that may have been meant. -/
  suggestion : Option Text
deriving DecidableEq, Repr

/-- The names that may have been meant. -/
def knownKeys : List Text :=
  let nested : List Text := ["lib", "name", "entry", "file_name", "alias", "find", "pattern",
    "replacement", "compiler", "rollup", "command", "bundled_packages", "output", "verbosity",
    "color"]
  Configuration.plainNames ++ nested

/-- The first known name among those nearest to a key, if it is near enough. -/
def suggestKey (key : Text) : Option Text :=
  match closest? key knownKeys with
  | some (name, distance) => if distance ≤ 2 then some name else none
  | none => none

/-- The number of the first line with a text in it, counted from one. -/
def lineOf? (content needle : Text) : Option Nat :=
  (content.lines.findIdx? fun l => Text.hasInfix l needle).map (· + 1)

/-- The report on an unknown key; of a key with points in it only the last part is told. -/
def UnknownKey.report (file : Path) (content key : Text) : UnknownKey :=
  let key := ((List.splitOn '.' key).getLast?).getD key
  ⟨key, file, lineOf? content key, suggestKey key⟩

/-- The report in words. -/
def UnknownKey.message (k : UnknownKey) : Text :=
  let place := match k.line with
    | some n => k.file.text ++ ":" ++ Text.ofNat n
    | none => k.file.text
  let hint : Text := match k.suggestion with
    | some s => " (did you mean '" ++ s ++ "'?)"
    | none => []
  "unknown config key '" ++ k.key ++ "' in " ++ place ++ hint

/-- The settings in a text, and its unknown keys in the order of the document. -/
def Configuration.parse (file : Path) (content : Text) :
    Except BuildError (Configuration × List UnknownKey) :=
  match Toml.parse? content with
  | none => .error (.config file "not a TOML document")
  | some document =>
    match ofToml? document with
    | none => .error (.config file "not a configuration")
    | some c =>
      let unknown := (Toml.Shape.record fieldShapes).unknownKeys document
      .ok (c, unknown.map (UnknownKey.report file content))

end Typings
