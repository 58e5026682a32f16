import Typings.Compiler.TsConfig
import Typings.Configuration.Basic
import Typings.Session.Options

/-!
# From configurations to build options

What a configuration leaves open is taken from the compiler's configuration, and then from the
defaults.

* `Configuration.projectRoot`: the root of the project.
* `Configuration.buildOptions`: the options of the build.

Relative paths are seen from the root of the project, and the root from the directory of the
configuration. The target of an alias is a path only if it starts with a dot or with a directory of
the root; else it is the name of a package and stays as it is.
-/

namespace Typings

/-- The name of a configuration file. -/
def Configuration.fileName : Path := "declpack.toml"

/-- The options of a library. -/
def LibrarySetting.options (l : LibrarySetting) (root : Path) : LibraryOptions where
  name := l.name.getD []
  entries := match l.entry with
    | .single p => [.ofPath root ⟨p⟩]
    | .list ps => ps.map fun p => .ofPath root ⟨p⟩
    | .named ps => ps.map fun (name, p) => ⟨name, root.resolve ⟨p⟩⟩
  fileName := l.fileName.getD defaultIndexName

namespace AliasSetting

/-- The target of an alias: a relative path that starts with a dot, or in a directory of the root,
    becomes absolute; the name of a package stays. -/
def target (isDirectory : Path → Bool) (root : Path) (replacement : Text) : Text :=
  let path : Path := ⟨replacement⟩
  let first := replacement.takeWhile (· != '/')
  if path.isAbsolute then replacement
  else if first.head? == some '.' || (!first.isEmpty && isDirectory (root.join ⟨first⟩)) then
    (root.resolve path).toSlash
  else replacement

/-- The rule of an alias. -/
def rule (isDirectory : Path → Bool) (root configDir : Path) (a : AliasSetting) :
    Except BuildError Alias.Rule :=
  let replacement := target isDirectory root a.replacement
  match a.find, a.pattern with
  | some find, none => .ok ⟨.literal find, replacement⟩
  | none, some pattern => (Alias.parsePattern pattern).map fun p => ⟨.pattern p, replacement⟩
  | _, _ => .error (.config (configDir.join Configuration.fileName)
      ("alias to '" ++ a.replacement ++ "' needs exactly one of `find` and `pattern`"))

end AliasSetting

namespace Configuration

/-- The root of the project, given the directory of the configuration. -/
def projectRoot (c : Configuration) (configDir : Path) : Path :=
  match c.root with
  | some root => configDir.resolve root
  | none => configDir

/-- The output directories: those of the configuration, else that of the compiler, else the
    default. -/
def outDirs (c : Configuration) (root : Path) (tsConfig : Option TsConfig) : List Path :=
  match (c.outDir.map OneOrMany.toList).getD [] with
  | [] => [(tsConfig.bind fun t => t.options.outDir).getD (root.join defaultOutDir)]
  | dirs => dirs.map fun d => root.resolve ⟨d⟩

/-- The options of the build. -/
def buildOptions (c : Configuration) (configDir : Path) (tsConfig : Option TsConfig)
    (isDirectory : Path → Bool) : Except BuildError BuildOptions := do
  let root := c.projectRoot configDir
  let aliases ← c.aliases.mapM (AliasSetting.rule isDirectory root configDir)
  let patterns ← c.aliasExclusionPatterns.mapM fun p =>
    Alias.Exclusion.pattern <$> Alias.parsePattern p
  return {
    root := root
    entryRoot := c.entryRoot.map root.resolve
    outDirs := c.outDirs root tsConfig
    library := c.library.map (·.options root)
    aliases := aliases
    aliasExclusions := c.aliasExclusions.map .literal ++ patterns
    included := ((c.included.map OneOrMany.toList) <|> tsConfig.bind (·.included)).getD
      SourceFilter.defaultInclude
    excluded := ((c.excluded.map OneOrMany.toList) <|> tsConfig.bind (·.excluded)).getD
      SourceFilter.defaultExclude
    staticImport := c.staticImport
    clearSideEffects := c.clearSideEffects
    cleanComponents := c.cleanComponents
    insertTypesEntry := c.insertTypesEntry
    rollupTypes := c.rollupTypes
    pathsToAliases := c.pathsToAliases
    copyDeclarations := c.copyDeclarations
    strictOutput := c.strictOutput
    bundledPackages := c.rollup.bundledPackages }

end Configuration

end Typings
