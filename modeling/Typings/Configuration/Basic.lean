import Typings.Event
import Typings.Terminal

/-!
# Configurations

What a project says about its build, as it is written.

* `Configuration`: all settings, with their defaults.
* `Configuration.override`: the settings that environment variables replace.

The settings are kept as they are written: paths are not resolved, and one text is told from a list of
one. Lists in variables are written with commas, and a list without parts replaces nothing; a variable
that is a switch is on unless it is `false` or `0`.
-/

namespace Typings

/-- One text or a list of texts, as it is written. -/
inductive OneOrMany where
  | one (t : Text)
  | many (ts : List Text)
deriving DecidableEq, Repr

/-- The texts. -/
def OneOrMany.toList : OneOrMany → List Text
  | .one t => [t]
  | .many ts => ts

/-- The entries of a library, as they are written. -/
inductive EntrySetting where
  | single (path : Text)
  /-- Entries named after their files. -/
  | list (paths : List Text)
  /-- Paths by name, in the order of the names. -/
  | named (paths : List (Text × Text))
deriving DecidableEq, Repr

/-- The library that is built. -/
structure LibrarySetting where
  name : Option Text := none
  entry : EntrySetting
  fileName : Option Text := none
deriving DecidableEq, Repr

/-- An alias; just one of `find` and `pattern` should be there. -/
structure AliasSetting where
  find : Option Text := none
  pattern : Option Text := none
  replacement : Text
deriving DecidableEq, Repr

/-- How declarations are rolled up. -/
structure RollupSetting where
  command : List Text := ["npx", "api-extractor"]
  bundledPackages : List Text := []
deriving DecidableEq, Repr

/-- What a project says about its build. -/
structure Configuration where
  /-- The root of the project, seen from the directory of the configuration. -/
  root : Option Path := none
  tsConfig : Option Path := none
  entryRoot : Option Path := none
  outDir : Option OneOrMany := none
  included : Option OneOrMany := none
  excluded : Option OneOrMany := none
  staticImport : Bool := false
  clearSideEffects : Bool := true
  cleanComponents : Bool := false
  insertTypesEntry : Bool := false
  rollupTypes : Bool := false
  pathsToAliases : Bool := true
  copyDeclarations : Bool := false
  strictOutput : Bool := true
  aliasExclusions : List Text := []
  aliasExclusionPatterns : List Text := []
  library : Option LibrarySetting := none
  aliases : List AliasSetting := []
  compilerCommand : List Text := ["npx", "tsc"]
  rollup : RollupSetting := {}
  verbosity : Verbosity := .normal
  colour : ColourMode := .auto
deriving Inhabited

/-- The name of a verbosity. -/
def Verbosity.name : Verbosity → Text
  | .quiet => "quiet"
  | .normal => "normal"
  | .verbose => "verbose"
  | .debug => "debug"

/-- The verbosity with a name. -/
def Verbosity.ofName? (name : Text) : Option Verbosity :=
  [Verbosity.quiet, .normal, .verbose, .debug].find? (·.name == name)

/-- The name of a colour mode. -/
def ColourMode.name : ColourMode → Text
  | .auto => "auto"
  | .always => "always"
  | .never => "never"

/-- The colour mode with a name. -/
def ColourMode.ofName? (name : Text) : Option ColourMode :=
  [ColourMode.auto, .always, .never].find? (·.name == name)

/-! ## Environment variables -/

/-- A text in small letters; only the letters of ASCII count. -/
def lowered (t : Text) : Text := t.map Char.toLower

/-- A variable switches a setting on unless it is `false` or `0`. -/
def isOn (value : Text) : Bool := lowered value != "false" && value != "0"

/-- The parts of a list with commas that are not blank, without blanks around them. -/
def commaParts (value : Text) : List Text :=
  ((List.splitOn ',' value).map Text.trim).filter fun part => !part.isEmpty

/-- The configuration with the settings that environment variables replace. -/
def Configuration.override (c : Configuration) (env : Environment) : Configuration :=
  let value? (name : String) : Option Text := env.lookup name.toList
  let outDir := match commaParts ((value? "DECLPACK_OUT_DIR").getD []) with
    | [] => c.outDir
    | dirs => some (.many dirs)
  let verbosity := match value? "DECLPACK_VERBOSITY" with
    | some v => (Verbosity.ofName? (lowered v)).getD .normal
    | none => c.verbosity
  { c with
    outDir := outDir
    rollupTypes := ((value? "DECLPACK_ROLLUP_TYPES").map isOn).getD c.rollupTypes
    strictOutput := ((value? "DECLPACK_STRICT_OUTPUT").map isOn).getD c.strictOutput
    verbosity := verbosity }

end Typings
