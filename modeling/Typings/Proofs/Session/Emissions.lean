import Typings.Proofs.Output.Accumulator
import Typings.Proofs.Session.Effects

/-!
# `Emissions` — what a flush asks the compiler for

The first half of a flush goes through the sources of the program one by one.  A source that is pending
is asked for, and what comes back is recorded at once, so that no later source at the same place is
asked for again.  Nothing in it can fail.

* `Emission`, `Compiler.Emits`: one request with what came back, and the requests in turn.
* `Host.Gathers`: what recording the missing outputs of some sources comes to; `Gathers.append`.
* `gathers_flushSources`, `gathers_writeBundle`: a flush, of which nothing is left out.
-/

namespace Typings

open Accumulator (recordAll)

variable {σ π : Type}

/-! ## Requests -/

/-- One request for the declarations of a source: the files that came back, and the directory that
    their names are seen from. -/
structure Emission where
  source : Path
  files : List EmittedFile
  dir : Path
deriving DecidableEq, Repr

/-- The files at the places they are recorded at. -/
def Emission.outputs (e : Emission) (publicRoot : Path) : List OutputFile :=
  e.files.map fun f => ⟨publicRoot.resolve (e.dir.relative (e.dir.resolve f.name)), f.text⟩

/-- The program is asked for the declarations of a source. -/
def Compiler.request (c : Compiler σ π) (w : σ) (p : π) (source : Path) : Emission :=
  ⟨source, (c.emit w source p).1, c.currentDir (c.emit w source p).2⟩

/-- The requests that take one program to another, in turn. -/
inductive Compiler.Emits (c : Compiler σ π) (w : σ) : π → List Emission → π → Prop where
  | nil {p : π} : Emits c w p [] p
  | cons {p p' : π} {calls : List Emission} (source : Path)
      (h : Emits c w (c.emit w source p).2 calls p') : Emits c w p (c.request w p source :: calls) p'

theorem Compiler.Emits.append {c : Compiler σ π} {w : σ} {p p' p'' : π} {calls calls' : List Emission}
    (h : c.Emits w p calls p') (h' : c.Emits w p' calls' p'') : c.Emits w p (calls ++ calls') p'' := by
  induction h with
  | nil => exact h'
  | cons source _ ih => exact .cons source (ih h')

/-- The compiler keeps a list of the sources it is asked for. -/
def Compiler.Logs (c : Compiler σ π) (log : π → List Path) : Prop :=
  ∀ w source p, log (c.emit w source p).2 = log p ++ [source]

theorem Compiler.Emits.log {c : Compiler σ π} {log : π → List Path} (hlog : c.Logs log) {w : σ}
    {p p' : π} {calls : List Emission} (h : c.Emits w p calls p') :
    log p' = log p ++ calls.map (·.source) := by
  induction h with
  | nil => exact (List.append_nil _).symm
  | cons source _ ih =>
      rw [ih, hlog, List.append_assoc]
      rfl

/-! ## Notes -/

/-- Outputs that are recorded for a source. -/
structure Note where
  source : Path
  outputs : List OutputFile
deriving DecidableEq, Repr

/-- What is recorded when a source has been asked for. -/
def Emission.note (e : Emission) (publicRoot : Path) : Note := ⟨e.source.normalize, e.outputs publicRoot⟩

/-- What is recorded for a declaration that is copied. -/
def SourceFile.copyNote (f : SourceFile) : Note := ⟨f.path.normalize, [⟨f.path.normalize, f.text⟩]⟩

namespace Accumulator

/-- Notes recorded one after the other. -/
def recordNotes (notes : List Note) (a : Accumulator) : Accumulator :=
  notes.foldl (fun a n => recordAll n.source n.outputs a) a

theorem recordNotes_append (notes notes' : List Note) (a : Accumulator) :
    recordNotes (notes ++ notes') a = recordNotes notes' (recordNotes notes a) := List.foldl_append

theorem owns_recordNotes {notes : List Note} {a : Accumulator} {s q : Path} :
    (recordNotes notes a).Owns s q ↔
      a.Owns s q ∨ ∃ n ∈ notes, n.source.same s = true ∧ ∃ o ∈ n.outputs, o.path.same q = true := by
  induction notes generalizing a with
  | nil => exact ⟨.inl, fun h => h.elim id fun ⟨_, hn, _⟩ => absurd hn (by simp)⟩
  | cons n notes ih =>
      rw [recordNotes, List.foldl_cons, ← recordNotes, ih, owns_recordAll]
      simp only [List.mem_cons, exists_eq_or_imp, or_assoc]

end Accumulator

open Accumulator (recordNotes recordNotes_append)

/-! ## Recording what is missing -/

namespace Host

variable {h : Host σ π} {w : σ}

/-- What recording the missing outputs of some sources comes to, from a program and a build. -/
structure Gathers (h : Host σ π) (w : σ) (fs : List SourceFile) (p : π) (b : Build) (p' : π)
    (b' : Build) (calls : List Emission) (notes : List Note) : Prop where
  emits : h.compiler.Emits w p calls p'
  build : b' = { b with outputs := recordNotes notes b.outputs, pending := b'.pending }
  /-- All that comes back is recorded, in turn. -/
  noted : (calls.map (·.note b.publicRoot)).Sublist notes
  /-- Nothing else is recorded, but for copies. -/
  notes : ∀ n ∈ notes, n ∈ calls.map (·.note b.publicRoot) ∨
    h.options.copyDeclarations = true ∧ ∃ f ∈ fs, f.isDeclaration = true ∧
      b.filter.accepts f.path.normalize = true ∧ n = f.copyNote
  pending : ∀ q, b'.pending.contains q = true ↔ b.pending.contains q = true ∧
    ¬ ∃ f ∈ fs, b.filter.accepts f.path.normalize = true ∧ f.path.normalize.same q = true
  /-- What is asked for was pending. -/
  sound : ∀ e ∈ calls, ∃ f ∈ fs, f.path = e.source ∧ b.filter.accepts f.path.normalize = true ∧
    b.pending.contains f.path.normalize = true
  /-- What was pending is asked for. -/
  complete : ∀ f ∈ fs, b.filter.accepts f.path.normalize = true →
    b.pending.contains f.path.normalize = true → ∃ e ∈ calls, e.source.normalize = f.path.normalize
  once : (calls.map (·.source.normalize)).Nodup

/-- Nothing is missing of a source that the filter does not take. -/
theorem gathers_rejected {f : SourceFile} {p : π} {b : Build}
    (hf : b.filter.accepts f.path.normalize = false) : h.Gathers w [f] p b p b [] [] where
  emits := .nil
  build := rfl
  noted := .slnil
  notes n hn := absurd hn (by simp)
  pending q := by simp [hf]
  sound e he := absurd he (by simp)
  complete g hg ha := by
    rw [List.mem_singleton.mp hg, hf] at ha
    exact absurd ha Bool.false_ne_true
  once := List.nodup_nil

/-- The copy of a source that is a declaration, if copies are asked for. -/
def copies (h : Host σ π) (f : SourceFile) : List Note :=
  if h.options.copyDeclarations && f.isDeclaration then [f.copyNote] else []

theorem mem_copies {f : SourceFile} {n : Note} (hn : n ∈ h.copies f) :
    h.options.copyDeclarations = true ∧ f.isDeclaration = true ∧ n = f.copyNote := by
  unfold copies at hn
  split at hn
  · rename_i hc
    rw [Bool.and_eq_true] at hc
    exact ⟨hc.1, hc.2, List.mem_singleton.mp hn⟩
  · exact absurd hn (by simp)

/-- A source that is not pending has at most a copy missing. -/
theorem gathers_settled {f : SourceFile} {p : π} {b : Build}
    (hf : b.filter.accepts f.path.normalize = true) (hp : b.pending.contains f.path.normalize = false) :
    h.Gathers w [f] p b p { b with outputs := recordNotes (h.copies f) b.outputs } [] (h.copies f) where
  emits := .nil
  build := rfl
  noted := List.nil_sublist _
  notes n hn := by
    obtain ⟨hc, hd, rfl⟩ := mem_copies hn
    exact .inr ⟨hc, f, List.mem_singleton_self f, hd, hf, rfl⟩
  pending q := by
    constructor
    · intro hq
      refine ⟨hq, ?_⟩
      rintro ⟨g, hg, -, hs⟩
      obtain rfl := List.mem_singleton.mp hg
      rw [PathMap.contains_congr hs] at hp
      exact absurd (hp.symm.trans hq) Bool.false_ne_true
    · exact fun hq => hq.1
  sound e he := absurd he (by simp)
  complete g hg _ hpg := by
    rw [List.mem_singleton.mp hg, hp] at hpg
    exact absurd hpg Bool.false_ne_true
  once := List.nodup_nil

/-- A source that is pending is asked for, and is no longer pending. -/
theorem gathers_pending {f : SourceFile} {p : π} {b : Build}
    (hf : b.filter.accepts f.path.normalize = true) (hp : b.pending.contains f.path.normalize = true) :
    h.Gathers w [f] p b (h.compiler.emit w f.path p).2
      { b with
        outputs := recordNotes (h.copies f ++ [(h.compiler.request w p f.path).note b.publicRoot]) b.outputs
        pending := b.pending.erase f.path.normalize }
      [h.compiler.request w p f.path]
      (h.copies f ++ [(h.compiler.request w p f.path).note b.publicRoot]) where
  emits := .cons f.path .nil
  build := rfl
  noted := List.sublist_append_right _ _
  notes n hn := by
    rcases List.mem_append.mp hn with hn | hn
    · obtain ⟨hc, hd, rfl⟩ := mem_copies hn
      exact .inr ⟨hc, f, List.mem_singleton_self f, hd, hf, rfl⟩
    · exact .inl hn
  pending q := by
    rw [PathMap.contains_erase]
    cases hs : f.path.normalize.same q with
    | true => simp [hf, hs]
    | false => simp [hs]
  sound e he := by
    obtain rfl := List.mem_singleton.mp he
    exact ⟨f, List.mem_singleton_self f, rfl, hf, hp⟩
  complete g hg _ _ := by
    obtain rfl := List.mem_singleton.mp hg
    exact ⟨_, List.mem_singleton_self _, rfl⟩
  once := List.pairwise_singleton _ _

section Append

variable {fs fs' : List SourceFile} {p p' p'' : π} {b b' b'' : Build} {calls calls' : List Emission}
  {notes notes' : List Note}

theorem Gathers.filter (h₁ : h.Gathers w fs p b p' b' calls notes) : b'.filter = b.filter := by
  rw [h₁.build]

theorem Gathers.publicRoot (h₁ : h.Gathers w fs p b p' b' calls notes) :
    b'.publicRoot = b.publicRoot := by
  rw [h₁.build]

theorem Gathers.pending_append (h₁ : h.Gathers w fs p b p' b' calls notes)
    (h₂ : h.Gathers w fs' p' b' p'' b'' calls' notes') (q : Path) :
    b''.pending.contains q = true ↔ b.pending.contains q = true ∧
      ¬ ∃ f ∈ fs ++ fs', b.filter.accepts f.path.normalize = true ∧ f.path.normalize.same q = true := by
  rw [h₂.pending, h₁.pending, h₁.filter]
  simp only [List.mem_append]
  constructor
  · rintro ⟨⟨hq, hleft⟩, hright⟩
    refine ⟨hq, ?_⟩
    rintro ⟨f, hf | hf, hcond⟩
    · exact hleft ⟨f, hf, hcond⟩
    · exact hright ⟨f, hf, hcond⟩
  · rintro ⟨hq, hnone⟩
    exact ⟨⟨hq, fun ⟨f, hf, hcond⟩ => hnone ⟨f, .inl hf, hcond⟩⟩,
      fun ⟨f, hf, hcond⟩ => hnone ⟨f, .inr hf, hcond⟩⟩

theorem Gathers.complete_append (h₁ : h.Gathers w fs p b p' b' calls notes)
    (h₂ : h.Gathers w fs' p' b' p'' b'' calls' notes') {f : SourceFile} (hf : f ∈ fs ++ fs')
    (haccept : b.filter.accepts f.path.normalize = true)
    (hpend : b.pending.contains f.path.normalize = true) :
    ∃ e ∈ calls ++ calls', e.source.normalize = f.path.normalize := by
  -- A source whose place has been settled by one before it has been asked for under that one's name.
  by_cases hsettled : ∃ g ∈ fs, b.filter.accepts g.path.normalize = true ∧
      g.path.normalize.same f.path.normalize = true
  · obtain ⟨g, hg, hga, hs⟩ := hsettled
    obtain ⟨e, he, heq⟩ := h₁.complete g hg hga (by rw [PathMap.contains_congr hs]; exact hpend)
    refine ⟨e, List.mem_append_left _ he, heq.trans ?_⟩
    exact Path.eq_of_same (Path.normalize_normalize _) (Path.normalize_normalize _) hs
  · rcases List.mem_append.mp hf with hf | hf
    · exact absurd ⟨f, hf, haccept, Path.same_self _⟩ hsettled
    · obtain ⟨e, he, heq⟩ := h₂.complete f hf (by rw [h₁.filter]; exact haccept)
        ((h₁.pending _).mpr ⟨hpend, hsettled⟩)
      exact ⟨e, List.mem_append_right _ he, heq⟩

theorem Gathers.once_append (h₁ : h.Gathers w fs p b p' b' calls notes)
    (h₂ : h.Gathers w fs' p' b' p'' b'' calls' notes') :
    ((calls ++ calls').map (·.source.normalize)).Nodup := by
  rw [List.map_append, List.nodup_append]
  refine ⟨h₁.once, h₂.once, ?_⟩
  rintro q hq r hr rfl
  obtain ⟨e, he, rfl⟩ := List.mem_map.mp hq
  obtain ⟨e', he', heq⟩ := List.mem_map.mp hr
  -- The second request is for a place that the first has taken out of what is pending.
  obtain ⟨f, hf, hpath, haccept, -⟩ := h₁.sound e he
  obtain ⟨f', -, hpath', -, hpend⟩ := h₂.sound e' he'
  refine ((h₁.pending _).mp hpend).2 ⟨f, hf, haccept, ?_⟩
  rw [hpath, hpath', heq]
  exact Path.same_self _

/-- **Some sources, and then others.** -/
theorem Gathers.append (h₁ : h.Gathers w fs p b p' b' calls notes)
    (h₂ : h.Gathers w fs' p' b' p'' b'' calls' notes') :
    h.Gathers w (fs ++ fs') p b p'' b'' (calls ++ calls') (notes ++ notes') := by
  constructor
  case emits => exact h₁.emits.append h₂.emits
  case build => rw [h₂.build, h₁.build, recordNotes_append]
  case noted =>
    have hnoted := h₂.noted
    rw [h₁.publicRoot] at hnoted
    rw [List.map_append]
    exact h₁.noted.append hnoted
  case notes =>
    intro n hn
    rw [List.map_append, List.mem_append]
    rcases List.mem_append.mp hn with hn | hn
    · rcases h₁.notes n hn with hcall | ⟨hc, f, hf, hcopy⟩
      · exact .inl (.inl hcall)
      · exact .inr ⟨hc, f, List.mem_append_left _ hf, hcopy⟩
    · have hnote := h₂.notes n hn
      rw [h₁.publicRoot, h₁.filter] at hnote
      rcases hnote with hcall | ⟨hc, f, hf, hcopy⟩
      · exact .inl (.inr hcall)
      · exact .inr ⟨hc, f, List.mem_append_right _ hf, hcopy⟩
  case pending => exact h₁.pending_append h₂
  case sound =>
    intro e he
    rcases List.mem_append.mp he with he | he
    · obtain ⟨f, hf, hcond⟩ := h₁.sound e he
      exact ⟨f, List.mem_append_left _ hf, hcond⟩
    · obtain ⟨f, hf, hpath, haccept, hpend⟩ := h₂.sound e he
      rw [h₁.filter] at haccept
      exact ⟨f, List.mem_append_right _ hf, hpath, haccept, ((h₁.pending _).mp hpend).1⟩
  case complete => exact fun f hf haccept hpend => h₁.complete_append h₂ hf haccept hpend
  case once => exact h₁.once_append h₂

end Append

theorem emitted_ok (b : Build) (source : Path) (s : Session σ π) :
    h.emitted b source s
      = .ok ((h.compiler.request s.bench.world s.program source).outputs b.publicRoot)
          { s with program := (h.compiler.emit s.bench.world source s.program).2 } := rfl

/-- A source takes the program and the build where `Gathers` says. -/
theorem gathers_flushSource {b : Build} {s : Session σ π} (hb : s.build = some b) (f : SourceFile) :
    ∃ p' b' calls notes, h.Gathers s.bench.world [f] s.program b p' b' calls notes ∧
      h.flushSource f s = .ok () { s with program := p', build := some b' } := by
  rw [flushSource, SessionM.bind_ok (SessionM.started_eq hb)]
  cases hf : b.filter.accepts f.path.normalize with
  | false =>
      refine ⟨s.program, b, [], [], gathers_rejected hf, ?_⟩
      rw [← hb]
      rfl
  | true =>
      have hcopied : (if (h.options.copyDeclarations && f.isDeclaration) = true then
          record f.path.normalize [⟨f.path.normalize, f.text⟩] b else b)
          = { b with outputs := recordNotes (h.copies f) b.outputs } := by
        unfold copies
        split <;> rfl
      rw [hcopied]
      cases hp : b.pending.contains f.path.normalize with
      | false =>
          refine ⟨_, _, _, _, gathers_settled hf hp, ?_⟩
          dsimp only
          rw [hp]
          rfl
      | true =>
          refine ⟨_, _, _, _, gathers_pending hf hp, ?_⟩
          dsimp only
          rw [hp, recordNotes_append]
          rfl

/-- **Recording what is missing** of some sources. -/
theorem gathers_flushSources {b : Build} {s : Session σ π} (hb : s.build = some b)
    (fs : List SourceFile) :
    ∃ p' b' calls notes, h.Gathers s.bench.world fs s.program b p' b' calls notes ∧
      h.flushSources fs s = .ok () { s with program := p', build := some b' } := by
  induction fs generalizing s b with
  | nil =>
      refine ⟨s.program, b, [], [], ⟨.nil, rfl, .slnil, by simp, by simp, by simp, by simp,
        List.nodup_nil⟩, ?_⟩
      rw [← hb]
      rfl
  | cons f fs ih =>
      obtain ⟨p₁, b₁, calls₁, notes₁, h₁, hs₁⟩ := h.gathers_flushSource hb f
      obtain ⟨p₂, b₂, calls₂, notes₂, h₂, hs₂⟩ :=
        ih (s := { s with program := p₁, build := some b₁ }) rfl
      refine ⟨p₂, b₂, _, _, h₁.append h₂, ?_⟩
      rw [flushSources, SessionM.bind_ok hs₁]
      exact hs₂

/-- The session when a flush has begun. -/
def begun (s : Session σ π) (b : Build) : Session σ π :=
  { s with
    bench := { s.bench with events := s.bench.events ++ [.started] }
    build := some { b with flushed := true } }

/-- A flush that is not skipped leaves the program and the build as recording the missing outputs does,
    whatever writing comes to. -/
theorem writeBundle_of_flushSources {b b' : Build} {s : Session σ π} {p' : π} (hb : s.build = some b)
    (hf : b.flushed = false)
    (hflush : h.flushSources (h.compiler.sources s.program) (begun s b)
      = .ok () { begun s b with program := p', build := some b' }) :
    (outcome (h.writeBundle s)).2.program = p' ∧ (outcome (h.writeBundle s)).2.build = some b' := by
  let s₂ : Session σ π := { begun s b with
    bench := { (begun s b).bench with events := (begun s b).bench.events ++ [.phase "emit output patch"] }
    program := p'
    build := some b' }
  have hgather : outcome (h.gather b s) = (.ok (s₂, b'), s₂) := by
    show outcome ((h.flushSources (h.compiler.sources s.program) >>= _) (begun s b)) = _
    rw [SessionM.bind_ok hflush]
    rfl
  have hflushes := h.flushes s
  generalize outcome (h.writeBundle s) = run at hflushes ⊢
  obtain ⟨r, s'⟩ := run
  cases hflushes with
  | notStarted hnone => exact absurd (hnone.symm.trans hb) nofun
  | skipped hb' hf' =>
      obtain rfl := Option.some.inj (hb.symm.trans hb')
      exact absurd (hf.symm.trans hf') Bool.false_ne_true
  | failed hb' _ hg =>
      obtain rfl := Option.some.inj (hb.symm.trans hb')
      exact absurd (hgather.symm.trans hg) nofun
  | written hb' _ hg _ =>
      obtain rfl := Option.some.inj (hb.symm.trans hb')
      obtain ⟨hok, rfl⟩ := Prod.mk.inj (hgather.symm.trans hg)
      exact ⟨rfl, rfl⟩

/-- **A flush that is not skipped** records what is missing of the sources of the program, whatever
    comes of it. -/
theorem gathers_writeBundle {b : Build} {s : Session σ π} (hb : s.build = some b)
    (hf : b.flushed = false) :
    ∃ b' calls notes, h.Gathers s.bench.world (h.compiler.sources s.program) s.program
        { b with flushed := true } (outcome (h.writeBundle s)).2.program b' calls notes ∧
      (outcome (h.writeBundle s)).2.build = some b' := by
  obtain ⟨p', b', calls, notes, hgathers, hflush⟩ :=
    h.gathers_flushSources (s := begun s b) rfl (h.compiler.sources s.program)
  obtain ⟨hprogram, hbuild⟩ := writeBundle_of_flushSources hb hf hflush
  refine ⟨b', calls, notes, ?_, hbuild⟩
  rw [hprogram]
  exact hgathers

end Host

end Typings
