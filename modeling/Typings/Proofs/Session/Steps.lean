import Mathlib.Data.List.TakeWhile
import Typings.Proofs.Session.Separate

/-!
# `Steps` — the steps of a session of a separate host

What a started session works with differs only in the recorded outputs, the pending sources and the
flag (`SeparateHost.build`).  Each step is described by what it does to these three.  None of them changes
the sources of the program but one: a source that is invalidated is read again first, and may be another one
then, or be gone (`SeparateHost.Reread`).

* `SeparateHost.At`: a session with given outputs, pending sources and flag.
* `SeparateHost.Follows`, `SeparateHost.Reread`: the same sources, and the same but for one.
* `emitted_eq`, `transform_eq`: the declarations of a source are made and recorded.
* `invalidate_held`, `invalidate_gone`: a source has changed, or is gone.
* `flushSource_eq`, `writes_writeRecorded`: the two halves of a flush.
-/

namespace Typings

open Accumulator (recordAll)

variable {σ π α β : Type}

theorem SessionM.bind_ok {op : SessionM σ π α} {k : α → SessionM σ π β} {a : α} {s s' : Session σ π}
    (h : op s = .ok a s') : (op >>= k) s = k a s' := by
  show EStateM.bind op k s = _
  rw [EStateM.bind, h]

theorem SessionM.get_bind (k : Session σ π → SessionM σ π α) (s : Session σ π) :
    ((get : SessionM σ π (Session σ π)) >>= k) s = k s s := rfl

theorem SessionM.started_eq {s : Session σ π} {b : Build} (h : s.build = some b) :
    SessionM.started s = .ok b s := by
  obtain ⟨bench, program, version, build⟩ := s
  cases h
  rfl

/-- Work that writes, as a step of a session. -/
theorem Writes.work {log : σ → List OutputFile} {op : WorkM σ α} {a : α} {l : List OutputFile}
    (h : Writes log op a l) (s : Session σ π) :
    ∃ b, SessionM.work op s = .ok a { s with bench := b } ∧ log b.world = log s.bench.world ++ l := by
  obtain ⟨b, hb, hl⟩ := h s.bench
  refine ⟨b, ?_, hl⟩
  rw [SessionM.work, hb]

/-- A folded path without a query is its own identity. -/
theorem sourceId_eq {p : Path} (hp : p.normalize = p) (hq : '?' ∉ p.text) : sourceId p = p := by
  have ht : p.text.takeWhile (· != '?') = p.text := by
    refine List.takeWhile_eq_self_iff.mpr fun c hc => ?_
    rw [bne_iff_ne]
    rintro rfl
    exact hq hc
  rw [sourceId, ht]
  exact hp

theorem normalize_sourceId (p : Path) : (sourceId p).normalize = sourceId p := Path.normalize_normalize _

namespace SeparateHost

variable {W : SeparateHost σ π}

/-- The aliases in force. -/
def aliases (W : SeparateHost σ π) : Alias.Set :=
  let configured := Alias.Set.ofRules W.host.options.aliases W.host.options.aliasExclusions
  if W.host.options.pathsToAliases then
    (Host.pathAliases W.host.options.root W.options).foldl Alias.Set.push configured
  else configured

/-- What a started session works with. -/
def build (W : SeparateHost σ π) (a : Accumulator) (pending : PathSet) (flushed : Bool) : Build where
  outputs := a
  pending := pending
  flushed := flushed
  publicRoot := W.publicRoot
  entryRoot := W.host.entryRoot W.publicRoot
  steps := ⟨W.aliases, W.host.options.clearSideEffects, W.host.options.consolidate⟩
  filter := W.filter

/-- A session with given outputs, pending sources and flag. -/
structure At (W : SeparateHost σ π) (s : Session σ π) (a : Accumulator) (pending : PathSet)
    (flushed : Bool) : Prop where
  build : s.build = some (W.build a pending flushed)
  program : W.Programs s.program
  recorded : W.Recorded a

/-- A session that differs in what the compiler has worked out, in its build and its version. -/
structure Follows (W : SeparateHost σ π) (s s' : Session σ π) : Prop where
  sources : W.sources s'.program = W.sources s.program
  log : W.log s'.bench.world = W.log s.bench.world

theorem Follows.refl (s : Session σ π) : W.Follows s s := ⟨rfl, rfl⟩

theorem Follows.trans {s s' s'' : Session σ π} (h : W.Follows s s') (h' : W.Follows s' s'') :
    W.Follows s s'' := ⟨h'.sources.trans h.sources, h'.log.trans h.log⟩

/-- A session whose compiler has read the source at a path again; the other sources are as they were. -/
structure Reread (W : SeparateHost σ π) (q : Path) (s : Session σ π) (refreshed : Bool)
    (s' : Session σ π) : Prop where
  step : SessionM.refresh W.host.compiler q s = .ok refreshed s'
  build : s'.build = s.build
  program : W.Programs s'.program
  others : ∀ f : SourceFile, f.path ≠ q → (f ∈ W.sources s'.program ↔ f ∈ W.sources s.program)
  held : (W.host.compiler.source? s'.program q).isSome = true → refreshed = true
  log : W.log s'.bench.world = W.log s.bench.world

variable {s s₁ : Session σ π} {a : Accumulator} {pending : PathSet} {flushed refreshed : Bool}

theorem source?_of_mem {p : π} (hp : W.Programs p) {f : SourceFile} (hf : f ∈ W.sources p) :
    W.host.compiler.source? p f.path = some f :=
  (W.source?_iff hp (W.taken hp hf).folded).mpr ⟨hf, rfl⟩

theorem source?_of_gone {p : π} (hp : W.Programs p) {q : Path} (hq : q.normalize = q)
    (hgone : ∀ f ∈ W.sources p, f.path ≠ q) : W.host.compiler.source? p q = none := by
  rw [Option.eq_none_iff_forall_not_mem]
  intro f hf
  obtain ⟨hmem, he⟩ := (W.source?_iff hp hq).mp hf
  exact hgone f hmem he

/-! ## Making declarations -/

/-- The compiler makes the declarations of a source, at the places they are recorded at. -/
theorem emitted_eq (hp : W.Programs s.program) {f : SourceFile} (hf : f ∈ W.sources s.program)
    (b : Build) (hb : b.publicRoot = W.publicRoot) :
    ∃ p', W.host.emitted b f.path s = .ok (W.outputs f.path f.text) { s with program := p' } ∧
      W.Programs p' ∧ W.sources p' = W.sources s.program := by
  obtain ⟨hfiles, hp', hsources⟩ := W.emit hp hf s.bench.world
  refine ⟨(W.host.compiler.emit s.bench.world f.path s.program).2, ?_, hp', hsources⟩
  have hemit : SessionM.emit W.host.compiler f.path s
      = .ok (W.emission f.path f.text)
          { s with program := (W.host.compiler.emit s.bench.world f.path s.program).2 } := by
    rw [← hfiles]
    rfl
  have hkey (name : Path) :
      W.host.emittedKey (W.host.compiler.emit s.bench.world f.path s.program).2 b.publicRoot name
        = W.key name := by
    rw [hb, emittedKey_eq hp']
  show (SessionM.emit W.host.compiler f.path >>= _) s = _
  rw [SessionM.bind_ok hemit]
  show EStateM.Result.ok _ _ = _
  simp only [hkey]
  rfl

theorem At.record (h : W.At s a pending flushed) {f : SourceFile} (hf : f ∈ W.sources s.program)
    {s' : Session σ π} {pending' : PathSet} {flushed' : Bool} (hp' : W.Programs s'.program)
    (hb : s'.build
      = some (W.build (recordAll f.path (W.outputs f.path f.text) a) pending' flushed')) :
    W.At s' (recordAll f.path (W.outputs f.path f.text) a) pending' flushed' :=
  ⟨hb, hp', h.recorded.record (W.taken h.program hf) _⟩

/-- A source is transformed: its declarations are recorded, and it is no longer pending. -/
theorem transform_eq (h : W.At s a pending flushed) {f : SourceFile}
    (hf : f ∈ W.sources s.program) (code : Text) :
    ∃ s', W.host.transform f.path code s = .ok true s' ∧ W.Follows s s' ∧
      W.At s' (recordAll f.path (W.outputs f.path f.text) a) (pending.erase f.path) flushed := by
  have htaken := W.taken h.program hf
  have hid := sourceId_eq htaken.folded htaken.noQuery
  have hscript : ScriptName.isScript f.path.text = true := htaken.script
  have hund : W.host.understands f.path = true := by
    rw [Host.understands, hscript, Bool.or_true]
  -- The source is no longer pending in `s₁`, before it is compiled; `s₂` is the session with the new record.
  let s₁ : Session σ π := { s with build := some (W.build a (pending.erase f.path) flushed) }
  obtain ⟨p', hemit, hp', hsources⟩ := emitted_eq (s := s₁) h.program hf
    (W.build a (pending.erase f.path) flushed) rfl
  have hdecl : W.host.declarations (W.build a (pending.erase f.path) flushed) f.path code s₁
      = .ok (W.outputs f.path f.text) { s₁ with program := p' } := by
    have hsource : W.host.compiler.source? s₁.program f.path = some f := source?_of_mem h.program hf
    rw [Host.declarations, W.noResolver f.path hscript]
    dsimp only
    rw [SessionM.get_bind, hsource]
    exact hemit
  have hf' : f ∈ W.host.compiler.sources p' := by
    rw [show W.host.compiler.sources p' = W.sources s.program from hsources]
    exact hf
  have hside : W.host.sidecarOutputs p' (W.build a (pending.erase f.path) flushed) f.path = [] := by
    rw [Host.sidecarOutputs, W.noSidecar hp' hf']
  let s₂ : Session σ π := { s₁ with
    program := p'
    build := some (W.build (recordAll f.path (W.outputs f.path f.text) a) (pending.erase f.path) flushed) }
  refine ⟨s₂, ?_, ⟨hsources, rfl⟩, h.record hf hp' rfl⟩
  have haccept : (!((W.build a pending flushed).filter.accepts f.path && W.host.understands f.path)) = false := by
    rw [hund, show (W.build a pending flushed).filter.accepts f.path = true from htaken.accepted]
    rfl
  rw [Host.transform, SessionM.bind_ok (SessionM.started_eq h.build), hid, haccept]
  refine (SessionM.bind_ok (show SessionM.setBuild _ s = .ok () s₁ from rfl)).trans ?_
  refine (SessionM.bind_ok hdecl).trans ?_
  show EStateM.Result.ok true { s₁ with
    program := p'
    build := some (Host.record f.path (W.outputs f.path f.text ++
      W.host.sidecarOutputs p' (W.build a (pending.erase f.path) flushed) f.path)
      (W.build a (pending.erase f.path) flushed)) } = _
  rw [hside, List.append_nil]
  rfl

/-! ## Changed sources -/

/-- A source that the program has is transformed with the text it has there. -/
theorem transformSource_eq (h : W.At s a pending flushed) {f : SourceFile}
    (hf : f ∈ W.sources s.program) {path : Path} (hid : sourceId path = f.path) :
    ∃ s', W.host.transformSource path s = .ok true s' ∧ W.Follows s s' ∧
      W.At s' (recordAll f.path (W.outputs f.path f.text) a) (pending.erase f.path) flushed := by
  obtain ⟨s', hs', hfollows, hat⟩ := transform_eq h hf f.text
  refine ⟨s', ?_, hfollows, hat⟩
  rw [Host.transformSource, hid, SessionM.get_bind, source?_of_mem h.program hf]
  show (if f.isDeclaration = true then Pure.pure false else W.host.transform f.path f.text :
    SessionM σ π Bool) s = _
  rw [(W.taken h.program hf).notDeclaration]
  exact hs'

/-- A path without a source is left alone. -/
theorem transformSource_gone (h : W.At s a pending flushed) {path : Path}
    (hgone : ∀ f ∈ W.sources s.program, f.path ≠ sourceId path) :
    W.host.transformSource path s = .ok false s := by
  rw [Host.transformSource, SessionM.get_bind,
    source?_of_gone h.program (normalize_sourceId path) hgone]
  rfl

theorem handles_eq (h : W.At s a pending flushed) (path : Path) :
    W.host.handles s path
      = (W.filter.accepts (sourceId path) && W.host.understands (sourceId path)) := by
  rw [Host.handles, h.build]
  rfl

/-- A source that the program has is one that the session takes. -/
theorem handles_of_mem (h : W.At s a pending flushed) {f : SourceFile} (hf : f ∈ W.sources s.program)
    {path : Path} (hid : sourceId path = f.path) : W.host.handles s path = true := by
  have htaken := W.taken h.program hf
  rw [handles_eq h, hid, htaken.accepted, Host.understands,
    show ScriptName.isScript f.path.text = true from htaken.script, Bool.or_true]
  rfl

theorem exists_reread (hp : W.Programs s.program) {q : Path} (hq : q.normalize = q) :
    ∃ refreshed s₁, W.Reread q s refreshed s₁ := by
  obtain ⟨refreshed, w', p', hrefresh, hlog, hp', hothers, hheld⟩ := W.refresh hp q s.bench.world hq
  refine ⟨refreshed, { s with bench := { s.bench with world := w' }, program := p' }, ?_⟩
  exact ⟨by rw [SessionM.refresh, hrefresh], rfl, hp', hothers, hheld, hlog⟩

/-- Reading a source again leaves alone what the session works with. -/
theorem Reread.at {q : Path} (hr : W.Reread q s refreshed s₁) (h : W.At s a pending flushed) :
    W.At s₁ a pending flushed :=
  ⟨hr.build.trans h.build, hr.program, h.recorded⟩

/-- A changed source is read again, and the session works with what `afterChange` says. -/
theorem invalidate_eq (h : W.At s a pending flushed) {path : Path} (hh : W.host.handles s path = true)
    (hr : W.Reread (sourceId path) s refreshed s₁) (b : Build) (changed : Bool)
    (hafter : Host.afterChange (W.build a pending flushed) (sourceId path) refreshed
      (W.host.compiler.source? s₁.program (sourceId path)).isNone = (b, changed)) :
    ∃ version, W.host.invalidate path s
      = .ok changed { s₁ with build := some b, version := version } := by
  have hstarted : SessionM.started s₁ = .ok (W.build a pending flushed) s₁ :=
    SessionM.started_eq (hr.at h).build
  refine ⟨if changed then s₁.version + 1 else s₁.version, ?_⟩
  rw [Host.invalidate]
  show (if (!W.host.handles s path) = true then Pure.pure false else _ : SessionM σ π Bool) s = _
  rw [hh]
  refine (SessionM.bind_ok hr.step).trans ?_
  refine (SessionM.get_bind _ s₁).trans ?_
  refine (SessionM.bind_ok hstarted).trans ?_
  rw [hafter]
  cases changed <;> rfl

/-- A source that the program has when it was read again is to be made again. -/
theorem invalidate_held (h : W.At s a pending flushed) {path : Path} (hh : W.host.handles s path = true)
    (hr : W.Reread (sourceId path) s refreshed s₁) {f : SourceFile} (hf : f ∈ W.sources s₁.program)
    (hid : sourceId path = f.path) :
    ∃ s', W.host.invalidate path s = .ok true s' ∧ W.Follows s₁ s' ∧
      W.At s' a (PathSet.add pending f.path) false := by
  have hsource : W.host.compiler.source? s₁.program (sourceId path) = some f := by
    rw [hid]
    exact source?_of_mem hr.program hf
  have hrefreshed : refreshed = true := hr.held (by rw [hsource]; rfl)
  obtain ⟨version, hs'⟩ := invalidate_eq h hh hr (W.build a (PathSet.add pending f.path) false) true
    (by rw [hsource, hid, hrefreshed]; rfl)
  exact ⟨_, hs', ⟨rfl, rfl⟩, ⟨rfl, hr.program, h.recorded⟩⟩

/-- A source that is gone when it was read again takes its outputs along; the session takes the change if
    there were any, if the source was pending, or if the program tells so. -/
theorem invalidate_gone (h : W.At s a pending flushed) {path : Path} (hh : W.host.handles s path = true)
    (hr : W.Reread (sourceId path) s refreshed s₁)
    (hgone : ∀ f ∈ W.sources s₁.program, f.path ≠ sourceId path) :
    ∃ s' taken, W.host.invalidate path s = .ok taken s' ∧ W.Follows s₁ s' ∧
      W.At s' (a.forget (sourceId path)) (pending.erase (sourceId path))
        (if taken then false else flushed) ∧
      (taken = false → a.dropped (sourceId path) = []) := by
  have hsource : W.host.compiler.source? s₁.program (sourceId path) = none :=
    source?_of_gone hr.program (normalize_sourceId path) hgone
  have hinv := invalidate_eq h hh hr
  rw [hsource] at hinv
  have hknown : Host.wasKnown (W.build a pending flushed) (sourceId path) refreshed = false →
      a.dropped (sourceId path) = [] := by
    intro hk
    simp only [Host.wasKnown, Bool.or_eq_false_iff] at hk
    have hd : (!(a.dropped (sourceId path)).isEmpty) = false := hk.1.2
    simpa using hd
  cases hk : Host.wasKnown (W.build a pending flushed) (sourceId path) refreshed with
  | true =>
      obtain ⟨version, hs'⟩ := hinv
        (W.build (a.forget (sourceId path)) (pending.erase (sourceId path)) false) true
        (by rw [Host.afterChange, hk]; rfl)
      exact ⟨_, true, hs', ⟨rfl, rfl⟩, ⟨rfl, hr.program, h.recorded.forget _⟩,
        fun hf => absurd hf (by decide)⟩
  | false =>
      obtain ⟨version, hs'⟩ := hinv
        (W.build (a.forget (sourceId path)) (pending.erase (sourceId path)) flushed) false
        (by rw [Host.afterChange, hk]; rfl)
      exact ⟨_, false, hs', ⟨rfl, rfl⟩, ⟨rfl, hr.program, h.recorded.forget _⟩, fun _ => hknown hk⟩

/-- A path that the session does not take is left alone. -/
theorem invalidate_other {path : Path} (hh : W.host.handles s path = false) :
    W.host.invalidate path s = .ok false s := by
  rw [Host.invalidate]
  show (if (!W.host.handles s path) = true then Pure.pure false else _ : SessionM σ π Bool) s = _
  rw [hh]
  rfl

/-! ## Flushing -/

/-- A flush makes the declarations of a source that is still pending. -/
theorem flushSource_eq (h : W.At s a pending flushed) {f : SourceFile}
    (hf : f ∈ W.sources s.program) :
    ∃ s' a' pending', W.host.flushSource f s = .ok () s' ∧ W.Follows s s' ∧
      W.At s' a' pending' flushed ∧ (a' = a ∨ a' = recordAll f.path (W.outputs f.path f.text) a) := by
  have htaken := W.taken h.program hf
  have haccept : (!(W.build a pending flushed).filter.accepts f.path) = false := by
    rw [show (W.build a pending flushed).filter.accepts f.path = true from htaken.accepted]
    rfl
  have hcopy : (W.host.options.copyDeclarations && f.isDeclaration) = false := by
    rw [W.noCopies]
    rfl
  have hstart : W.host.flushSource f s
      = (if pending.contains f.path then do
          let b := W.build a (pending.erase f.path) flushed
          SessionM.setBuild (Host.record f.path (← W.host.emitted b f.path) b)
        else SessionM.setBuild (W.build a pending flushed)) s := by
    rw [Host.flushSource, SessionM.bind_ok (SessionM.started_eq h.build), htaken.folded, haccept, hcopy]
    rfl
  rw [hstart]
  split
  · obtain ⟨p', hemit, hp', hsources⟩ := emitted_eq (s := s) h.program hf
      (W.build a (pending.erase f.path) flushed) rfl
    refine ⟨_, _, pending.erase f.path, SessionM.bind_ok hemit, ⟨hsources, rfl⟩, ?_, .inr rfl⟩
    exact h.record hf hp' rfl
  · exact ⟨_, a, pending, rfl, ⟨rfl, rfl⟩, ⟨rfl, h.program, h.recorded⟩, .inl rfl⟩

/-- How the outputs become files. -/
def layout (W : SeparateHost σ π) : Layout where
  steps := ⟨W.aliases, W.host.options.clearSideEffects, W.host.options.consolidate⟩
  cleanComponents := W.host.options.cleanComponents
  currentDir := W.currentDir
  publicRoot := W.publicRoot
  entryRoot := W.host.entryRoot W.publicRoot
  outDir := W.host.options.outDir

/-- The files that a flush writes for some outputs, copies last. -/
def filesOf (W : SeparateHost σ π) (os : List OutputFile) : List OutputFile :=
  (os.flatMap fun o => (W.host.writer.output? W.layout o).toList) ++
    (Writer.byPlace (os.map (W.host.writer.output? W.layout))).entries.flatMap fun e =>
      W.host.writer.copies (W.host.options.outDirs.drop 1) ⟨e.1, e.2⟩

theorem writes_writeRecorded {p : π} (hp : W.Programs p) (a : Accumulator) (pending : PathSet)
    (done : Bool) (version : Nat) :
    ∃ r, Writes W.log (W.host.writeRecorded p (W.build a pending done) version) r
      (W.filesOf a.snapshot) := by
  have hlayout : W.host.layout p (W.build a pending done) = W.layout := by
    rw [Host.layout, W.currentDir_eq hp]
    rfl
  have hkeeps : Files.Keeps W.host.writer.files W.log := W.keeps
  have hroot (emitted : PathMap Text) :
      W.host.addRootFiles p (W.build a pending done) emitted = Pure.pure ([], emitted) := by
    rw [Host.addRootFiles, W.noTypesEntry, W.noRollup]
    rfl
  obtain ⟨copied, hcopied⟩ := Writer.writes_replicate hkeeps
    (Writer.byPlace (a.snapshot.map (W.host.writer.output? W.layout))) (W.host.options.outDirs.drop 1)
  have hafter : W.host.hooks.afterBuild = .ok () := by rw [W.noHooks]
  have hmain := Writer.writes_writeOutputs hkeeps W.layout a.snapshot
  refine ⟨⟨(Writer.byPlace (a.snapshot.map (W.host.writer.output? W.layout))).keys, [], copied,
    version⟩, ?_⟩
  rw [Host.writeRecorded, hlayout, hafter]
  refine hmain.bind ((Writes.phase _).andThen ?_)
  rw [hroot]
  refine (Writes.pure _).andThen (hcopied.followedBy ?_)
  refine (Writes.ofExcept ()).andThen ((Writes.phase _).andThen ?_)
  exact (Writes.report _).thenPure

end SeparateHost

end Typings
