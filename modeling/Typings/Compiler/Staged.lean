import Typings.Compiler.Program
import Typings.Compiler.TsConfig
import Typings.Files.Ignore
import Typings.PublicRoot
import Typings.SourceFilter
import Typings.Tool

/-!
# Programs compiled in stages

The compiler runs once for every change, and writes its declarations below a staging directory.  The
sources are found in the project, and declarations are read from the staging directory when they are
asked for.

* `CompilerSetup`: what the compiler is run with.
* `StagedProgram`: the sources and the result of the last run.
* `StagedCompiler.create?`: finds the sources and runs the compiler for the first time.
* `StagedCompiler.compiler`: the answers for a build.

A source that has changed is read again and the compiler runs once more, unless the path is none of
the program's or was neither there before nor is there now.  What the compiler complains about is kept
with the result and does not stop a build.
-/

namespace Typings

/-- What the compiler is run with. -/
structure CompilerSetup where
  /-- The program and its first arguments. -/
  command : List Text
  root : Path
  config : Option TsConfig := none
  filter : SourceFilter
  /-- Sources that are part of the program in any case. -/
  extraRoots : List Path := []
  /-- Extensions of sources that are no scripts. -/
  extensions : List Text := []

/-- The sources and the result of the last run. -/
structure StagedProgram where
  setup : CompilerSetup
  options : CompilerOptions
  files : PathMap SourceFile
  /-- The directory of sources that the staging directory stands for. -/
  emitRoot : Path
  staging : Path
  diagnostics : List Diagnostic := []

namespace CompilerSetup

/-- The path can be a source: a script, or a file with one of the extensions. -/
def isProgramFile (c : CompilerSetup) (p : Path) : Bool :=
  ScriptName.isScript p.text || p.extension?.any c.extensions.contains

/-- The compiler's options. -/
def options (c : CompilerSetup) : CompilerOptions :=
  match c.config with
  | some config => config.options
  | none => {}

end CompilerSetup

/-- The path lies in an installed package. -/
def isInstalled (p : Path) : Bool := p.components.any (·.text == "node_modules")

/-- The directory of sources that declarations are laid out below. -/
def emitRoot (o : CompilerOptions) (files : PathMap SourceFile) : Path :=
  let isEmitted (f : SourceFile) : Bool :=
    ScriptName.isEmitted f.path.text o.skipJavaScript && !isInstalled f.path
  let found := publicRoot ((files.values.filter isEmitted).map (·.path))
  match o.rootDir, o.configFile with
  | some dir, _ => dir
  | none, some file => if o.composite then file.parentDir else found
  | none, none => found

namespace StagedProgram

/-- The name of a source's declaration below the staging directory; a source outside of the emit root
    has none. -/
def declaration? (p : StagedProgram) (source : Path) : Option Path :=
  let relative := p.emitRoot.relative source
  if relative.components.head? == some .parent then none
  else
    let name := relative.toSlash
    some ⟨ScriptName.stripScript name ++ ".d." ++ ScriptName.modulePrefix name ++ "ts"⟩

/-- The arguments of the compiler after the command. -/
def arguments (p : StagedProgram) : List Text :=
  let base : List Text := ["--declaration", "--emitDeclarationOnly", "--pretty", "false", "--outDir",
    p.staging.text, "--rootDir", p.emitRoot.text]
  let maps : List Text := if p.options.declarationMap then ["--declarationMap"] else []
  let sources : List Text := match p.setup.config with
    | some config => ["--project", config.path.text]
    | none => (p.files.values.filter (·.isScript)).map (·.path.text)
  base ++ maps ++ sources

end StagedProgram

/-- How staged programs reach their files and their compiler. -/
structure StagedCompiler (σ : Type) where
  files : Files.FileStore σ
  tools : ToolRunner σ
  /-- The directory for temporary files. -/
  temporaryDir : Path

namespace StagedCompiler

variable {σ : Type}

/-- The sources at some places, as far as they can be read. -/
def readSources (c : StagedCompiler σ) (w : σ) (places : List Path) : PathMap SourceFile :=
  PathMap.ofList (places.filterMap fun p => match c.files.read w p with
    | .ok text => some (p, ⟨p, text⟩)
    | .error _ => none)

/-- Finds the sources of a program. -/
def discover (c : StagedCompiler σ) (setup : CompilerSetup) (w : σ) :
    Except BuildError (PathMap SourceFile) :=
  match Files.walk c.files w setup.root with
  | .error e => .error (.files e.unplaced)
  | .ok found =>
    let own := found.filter fun p => setup.isProgramFile p && setup.filter.accepts p
    let listed := match setup.config with
      | some config => config.files
      | none => []
    let all := PathSet.ofPaths
      (own.map Path.normalize ++ listed ++ setup.extraRoots.map Path.normalize)
    .ok (c.readSources w all.keys)

/-- Runs the compiler; what it complains about becomes part of the program. -/
def compile (c : StagedCompiler σ) : EStateM BuildError (σ × StagedProgram) Unit := fun (w, p) =>
  match p.setup.command with
  | [] => .error (.compiler "empty compiler command") (w, p)
  | program :: leading =>
    match c.tools.run p.setup.root program (leading ++ p.arguments) w with
    | (.ok (_, output), w) =>
      .ok () (w, { p with diagnostics := parseDiagnostics p.setup.root output })
    | (.error fault, w) => .error (.compiler (notRun p.setup.command fault)) (w, p)

/-- The directory that the compiler writes to. -/
def staging (c : StagedCompiler σ) : Path := c.temporaryDir.join (temporaryName "declpack-" "")

/-- Finds the sources and runs the compiler for the first time. -/
def create (c : StagedCompiler σ) (setup : CompilerSetup) : EStateM BuildError σ StagedProgram :=
  fun w =>
    match c.discover setup w with
    | .error e => .error e w
    | .ok files =>
      match c.files.createDirs c.staging w with
      | .error e w => .error (.files e) w
      | .ok _ w =>
        let p : StagedProgram :=
          { setup := setup
            options := setup.options
            files := files
            emitRoot := emitRoot setup.options files
            staging := c.staging }
        match c.compile (w, p) with
        | .ok _ (w, p) => .ok p w
        | .error e (w, _) => .error e w

/-- The declaration of a source and its map, as far as the compiler made them. -/
def emitted (c : StagedCompiler σ) (w : σ) (p : StagedProgram) (source : Path) : List EmittedFile :=
  match p.declaration? source with
  | none => []
  | some name => [name, name.append ".map"].filterMap fun n =>
    match c.files.read w (p.staging.join n) with
    | .ok text => some ⟨n, text⟩
    | .error _ => none

/-- The program after a source was read again, and whether it could be read. -/
def reread (c : StagedCompiler σ) (w : σ) (p : StagedProgram) (path : Path) : StagedProgram × Bool :=
  match c.files.read w path with
  | .ok text => ({ p with files := p.files.insert path ⟨path, text⟩ }, true)
  | .error _ => ({ p with files := p.files.erase path }, false)

/-- Reads a source again and runs the compiler, if that can change the program. -/
def refresh (c : StagedCompiler σ) (path : Path) : EStateM BuildError (σ × StagedProgram) Bool := do
  let (w, p) ← get
  if !(p.setup.filter.accepts path && p.setup.isProgramFile path) then return false
  let known := p.files.contains path
  let (p, there) := c.reread w p path
  set (w, p)
  if !there && !known then return false
  c.compile
  return true

/-- The answers for a build. -/
def compiler (c : StagedCompiler σ) : Compiler σ StagedProgram where
  source? p path := p.files.get? path
  sources p := p.files.values
  isExternal _ f := isInstalled f.path
  diagnostics := StagedProgram.diagnostics
  options := StagedProgram.options
  currentDir := StagedProgram.staging
  emit w path := fun p => (c.emitted w p path, p)
  refresh := c.refresh

end StagedCompiler

end Typings
