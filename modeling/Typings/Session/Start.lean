import Typings.PublicRoot
import Typings.Session.State

/-!
# Starting a session

Starting finds the roots, the aliases and the sources of a build.

* `Host.aliases`: the configured aliases and those of the compiler's `paths`.
* `Host.publicRoot`, `Host.entryRoot`: where sources and outputs are anchored.
* `Host.pending`: the sources whose declarations are to be made.
* `Host.start`: all of it.

Everything that a start works out is a function of the options and of the program, and is kept for the
life of the session. A start that fails leaves a session that has not started. The roots are those
that the compiler would use: as it is told, or the deepest directory of what has declarations.
-/

namespace Typings.Host

variable {σ π : Type}

/-- The alias of an entry of `paths`: the first target counts, and both lose their first `/*`. -/
def pathAlias? (base : Path) (pattern : Text) (targets : List Text) : Option Alias.Rule :=
  targets.head?.map fun target =>
    ⟨.literal (Text.replaceFirst "/*" "" pattern),
      (base.resolve ⟨Text.replaceFirst "/*" "" target⟩).toSlash⟩

/-- The aliases of the compiler's `paths`, which need a base directory. -/
def pathAliases (root : Path) (o : CompilerOptions) : List Alias.Rule :=
  match o.baseUrl with
  | none => []
  | some url =>
    let dir := match o.configFile with
      | some file => file.parentDir
      | none => root
    let base := dir.resolve url
    o.paths.filterMap fun (pattern, targets) => pathAlias? base pattern targets

/-- The aliases in force. -/
def aliases (h : Host σ π) (p : π) : Alias.Set :=
  let configured := Alias.Set.ofRules h.options.aliases h.options.aliasExclusions
  if h.options.pathsToAliases then
    (pathAliases h.options.root (h.compiler.options p)).foldl Alias.Set.push configured
  else configured

/-- The public root: as the compiler is told, or the deepest directory of all sources that have
    declarations. -/
def publicRoot (h : Host σ π) (p : π) : Path :=
  let o := h.compiler.options p
  let found := ((h.compiler.sources p).filter (h.compiler.isEmitted p)).map (·.path)
  let root := match o.rootDir, o.configFile with
    | some dir, _ => h.options.root.resolve dir
    | none, some file => if o.composite then file.parentDir else Typings.publicRoot found
    | none, none => Typings.publicRoot found
  root.normalize

/-- The entry root: as configured, or the public root. -/
def entryRoot (h : Host σ π) (publicRoot : Path) : Path :=
  match h.options.entryRoot with
  | some dir => h.options.root.resolve dir
  | none => publicRoot

/-- The sources whose declarations are to be made: the entries, and what the filter takes. -/
def pending (h : Host σ π) (p : π) (filter : SourceFilter) : PathSet :=
  let own := (h.compiler.sources p).filter fun f => !h.compiler.isExternal p f
  let places := (own.map (·.path.normalize)).filter filter.accepts
  PathSet.ofPaths (h.options.entries.map (·.source.normalize) ++ places)

/-- Reports what the compiler complained about. -/
def reportDiagnostics (ds : List Diagnostic) : WorkM σ Unit :=
  if ds.isEmpty then pure () else WorkM.report (.diagnostics ds.length (formatDiagnostics ds))

/-- Starts the session; one that has started stays as it is. -/
def start (h : Host σ π) : SessionM σ π Unit := do
  if (← get).build.isSome then return
  let p := (← get).program
  let o := h.options
  if o.library.isNone then SessionM.work (WorkM.report .notALibrary)
  let steps : Declaration.Steps := ⟨h.aliases p, o.clearSideEffects, o.consolidate⟩
  let filter ← SessionM.work (WorkM.ofExcept (SourceFilter.ofGlobs o.root o.included o.excluded))
  SessionM.work (WorkM.phase "parse config")
  let publicRoot := h.publicRoot p
  let diagnostics := h.compiler.diagnostics p
  SessionM.work (reportDiagnostics diagnostics)
  SessionM.work (WorkM.ofExcept (h.hooks.afterDiagnostics diagnostics))
  SessionM.setBuild
    { pending := h.pending p filter, publicRoot, entryRoot := h.entryRoot publicRoot, steps, filter }
  SessionM.work (WorkM.phase "create program")

end Typings.Host
