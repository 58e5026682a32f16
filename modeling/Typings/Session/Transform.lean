import Typings.Session.State

/-!
# Recording declarations

* `Host.transform`: records the declarations of one loaded source.
* `Host.transformSources`: those of every source of the program.
* `Host.transformSource`: those of one source with its present text.
* `Host.invalidate`: a source has changed.

A source is known by its folded path without a query. Its declarations come from the first resolver
that is for it, and from the compiler if there is none; a declaration written by hand that stands
beside it is recorded with them. A source that is gone takes along what only it has recorded, and one
that is there is pending again.
-/

namespace Typings.Host

variable {σ π : Type}

/-- Records outputs for a source. -/
def record (source : Path) (outputs : List OutputFile) (b : Build) : Build :=
  { b with outputs := outputs.foldl (fun a o => a.recordFor source o.path o.content) b.outputs }

/-- What a resolver makes of a source, at the places it is recorded at. -/
def resolved (h : Host σ π) (r : Resolver σ π) (b : Build) (id : Path) (code : Text) :
    SessionM σ π (List OutputFile) := do
  let loaded : Loaded := ⟨id, code, b.publicRoot, h.options.outDir⟩
  let outputs ← SessionM.onProgram fun w => r.outputs h.compiler w loaded
  return outputs.map fun o => { o with path := h.resolvedKey b.publicRoot o.path }

/-- What the compiler makes of a source, at the places it is recorded at. -/
def emitted (h : Host σ π) (b : Build) (source : Path) : SessionM σ π (List OutputFile) := do
  let files ← SessionM.emit h.compiler source
  let p := (← get).program
  return files.map fun f => ⟨h.emittedKey p b.publicRoot f.name, f.text⟩

/-- The declaration written by hand that belongs to a source. -/
def sidecar (id : Path) : Path := ⟨ScriptName.stripScript id.text ++ ".d.ts"⟩

/-- The declaration written by hand, if the program has one and the filter takes it. -/
def sidecarOutputs (h : Host σ π) (p : π) (b : Build) (id : Path) : List OutputFile :=
  match h.compiler.source? p (sidecar id) with
  | some f => if b.filter.accepts f.path.normalize then [⟨f.path.normalize, f.text⟩] else []
  | none => []

/-- The declarations of a source: by its resolver, or by the compiler. -/
def declarations (h : Host σ π) (b : Build) (id : Path) (code : Text) :
    SessionM σ π (List OutputFile) := do
  match h.registry.dispatch? id with
  | some r => h.resolved r b id code
  | none =>
    match h.compiler.source? (← get).program id with
    | some f => h.emitted b f.path
    | none => return []

/-- Records the declarations of a loaded source; tells whether the session takes it. -/
def transform (h : Host σ π) (path : Path) (code : Text) : SessionM σ π Bool := do
  let b ← SessionM.started
  let id := sourceId path
  if !(b.filter.accepts id && h.understands id) then return false
  let b := { b with pending := b.pending.erase id }
  SessionM.setBuild b
  let outputs ← h.declarations b id code
  let beside := h.sidecarOutputs (← get).program b id
  SessionM.setBuild (record id (outputs ++ beside) b)
  return true

/-- The sources that are loaded one after the other: no declarations, none of dependencies, and of
    those that are no scripts only what lies below the entry root. -/
def loadable (h : Host σ π) (p : π) (b : Build) : List SourceFile :=
  (h.compiler.sources p).filter fun f =>
    !f.isDeclaration && !h.compiler.isExternal p f &&
      (f.isScript || f.path.normalize.startsWith b.entryRoot)

/-- Transforms some sources; tells how many of them the session takes. -/
def transformAll (h : Host σ π) : List SourceFile → SessionM σ π Nat
  | [] => return 0
  | f :: rest => do
    let taken ← h.transform f.path f.text
    let others ← h.transformAll rest
    return if taken then others + 1 else others

/-- Transforms every source of the program. -/
def transformSources (h : Host σ π) : SessionM σ π Nat := do
  let b ← SessionM.started
  h.transformAll (h.loadable (← get).program b)

/-- Transforms one source with the text that the program has. -/
def transformSource (h : Host σ π) (path : Path) : SessionM σ π Bool := do
  let id := sourceId path
  match h.compiler.source? (← get).program id with
  | some f => if f.isDeclaration then return false else h.transform id f.text
  | none => return false

/-- Without a source that is gone, and the outputs that only it has recorded. -/
def withoutSource (b : Build) (id : Path) : Build :=
  { b with outputs := b.outputs.forget id, pending := b.pending.erase id }

/-- A source that is gone was part of the build, or has outputs in it. -/
def wasKnown (b : Build) (id : Path) (refreshed : Bool) : Bool :=
  refreshed || !(b.outputs.dropped id).isEmpty || b.pending.contains id

/-- What a session works with after a source has changed, and whether there is something to flush: a
    source that is gone takes its outputs along, one that is there is to be made again. -/
def afterChange (b : Build) (id : Path) (refreshed gone : Bool) : Build × Bool :=
  if gone then
    let b' := withoutSource b id
    if wasKnown b id refreshed then ({ b' with flushed := false }, true) else (b', false)
  else if refreshed then ({ b with pending := PathSet.add b.pending id, flushed := false }, true)
  else (b, false)

/-- A source has changed; tells whether the session has to flush again. -/
def invalidate (h : Host σ π) (path : Path) : SessionM σ π Bool := do
  if !h.handles (← get) path then return false
  let id := sourceId path
  let refreshed ← SessionM.refresh h.compiler id
  let gone := (h.compiler.source? (← get).program id).isNone
  let (b, changed) := afterChange (← SessionM.started) id refreshed gone
  SessionM.setBuild b
  if changed then modify fun s => { s with version := s.version + 1 }
  return changed

end Typings.Host
