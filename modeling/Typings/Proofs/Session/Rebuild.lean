import Typings.DryRun.Program
import Typings.Files.Memory
import Typings.Proofs.Resolver
import Typings.Proofs.Session.Steps

/-!
# `Rebuild` — watching is as good as building anew

A watched session keeps recorded outputs, owners and pending sources across any number of rounds.  The
invariant is that every path outside of a set of dirty ones is up to date (`Upto`): an edit makes the
changed paths dirty, and so does reading a source again, which may find another text or none; each change
that is taken cleans its path, and a flush needs none to be dirty.  A session that is up to date everywhere
writes what a clean build of its program writes.

* `Upto`: up to date except for some paths.
* `start_eq`, `transformAll_spec`, `writeBundle_spec`: a clean build.
* `applyChange_held`, `applyChange_gone`, `applyChange_spec`: one change; `takeChanges_spec`: some.
* `Reached`: the sessions that a clean build and rounds of changes lead to, with the last writes.
* `rebuild_eq_clean`: the last writes are those of a clean build.
-/

namespace Typings

open Accumulator (recordAll)

variable {σ π : Type}

/-- A build from nothing: start, transform every source, flush. -/
def Host.cleanBuild (h : Host σ π) : SessionM σ π (Option Report) := do
  h.firstBuild
  h.writeBundle

namespace SeparateHost

variable {W : SeparateHost σ π} {s s' : Session σ π} {a : Accumulator} {pending : PathSet}
  {flushed : Bool} {dirty : Path → Prop}

/-! ## Up to date except for some paths -/

/-- A session in which every path that is not dirty is up to date. -/
structure Upto (W : SeparateHost σ π) (dirty : Path → Prop) (s : Session σ π) (a : Accumulator)
    (pending : PathSet) (flushed : Bool) : Prop extends W.At s a pending flushed where
  current : ∀ q, q.normalize = q → ¬ dirty q → W.Current a (W.sources s.program) q

/-- What is up to date but for some places is so but for more of them. -/
theorem Upto.mono {dirty' : Path → Prop} (h : W.Upto dirty s a pending flushed)
    (hd : ∀ q, q.normalize = q → dirty q → dirty' q) : W.Upto dirty' s a pending flushed :=
  ⟨h.toAt, fun q hq hn => h.current q hq fun hdq => hn (hd q hq hdq)⟩

/-- Recording the declarations of a source cleans its path. -/
theorem Upto.record (h : W.Upto dirty s a pending flushed) {f : SourceFile}
    (hf : f ∈ W.sources s.program) (hs : W.Follows s s') {pending' : PathSet} {flushed' : Bool}
    (hat : W.At s' (recordAll f.path (W.outputs f.path f.text) a) pending' flushed') :
    W.Upto (fun q => dirty q ∧ q ≠ f.path) s' (recordAll f.path (W.outputs f.path f.text) a)
      pending' flushed' := by
  refine ⟨hat, fun q hq hn => ?_⟩
  rw [hs.sources]
  by_cases he : q = f.path
  · rw [he]
    exact current_record_self h.program hf a
  · have hclean : ¬ dirty q := fun hd => hn ⟨hd, he⟩
    exact current_record_of_ne h.program hf hq (Ne.symm he) (h.current q hq hclean)

/-- Forgetting a source that is gone cleans its path. -/
theorem Upto.forget (h : W.Upto dirty s a pending flushed) {r : Path} (hr : r.normalize = r)
    (hgone : ∀ f ∈ W.sources s.program, f.path ≠ r) (hs : W.Follows s s') {pending' : PathSet}
    {flushed' : Bool} (hat : W.At s' (a.forget r) pending' flushed') :
    W.Upto (fun q => dirty q ∧ q ≠ r) s' (a.forget r) pending' flushed' := by
  refine ⟨hat, fun q hq hn => ?_⟩
  rw [hs.sources]
  by_cases he : q = r
  · rw [he]
    exact current_forget_self hgone
  · have hclean : ¬ dirty q := fun hd => hn ⟨hd, he⟩
    have hne : r.same q = false := by
      rw [Bool.eq_false_iff]
      exact fun hs => he (Path.eq_of_same hr hq hs).symm
    exact current_forget_of_ne h.recorded hne (h.current q hq hclean)

/-- Reading a source again makes its path dirty, and no other. -/
theorem Upto.reread (h : W.Upto dirty s a pending flushed) {r : Path} {refreshed : Bool}
    (hr : W.Reread r s refreshed s') : W.Upto (fun q => dirty q ∨ q = r) s' a pending flushed := by
  refine ⟨hr.at h.toAt, fun q hq hn => ?_⟩
  obtain ⟨hclean, hne⟩ := not_or.mp hn
  refine (h.current q hq hclean).congr fun f hf => (hr.others f ?_).symm
  rwa [hf]

/-- A path that the session does not take has nothing recorded. -/
theorem Upto.clean_of_not_handled (h : W.Upto dirty s a pending flushed) {path : Path}
    (hh : W.host.handles s path = false) (hgone : ∀ f ∈ W.sources s.program, f.path ≠ sourceId path) :
    W.Upto (fun q => dirty q ∧ q ≠ sourceId path) s a pending flushed := by
  refine ⟨h.toAt, fun q hq hn => ?_⟩
  by_cases he : q = sourceId path
  · subst he
    refine ⟨fun f hf he => absurd he (hgone f hf), fun f hf he => absurd he (hgone f hf), ?_⟩
    intro _ k ho
    obtain ⟨haccept, hscript⟩ := h.recorded.taken hq ho
    rw [handles_eq h.toAt, haccept, Host.understands, hscript, Bool.or_true] at hh
    exact absurd hh (by decide)
  · exact h.current q hq fun hd => hn ⟨hd, he⟩

/-! ## A round of changes -/

/-- A step that goes through gives its result and reports nothing. -/
theorem attempt_ok {α : Type} {step : SessionM σ π α} {x : α} (h : step s = .ok x s')
    (es : List WatchEvent) : Host.attempt step (s, es) = (.ok x, s', es) := by
  rw [Host.attempt, h]

theorem WatchM.bind_eq {α β : Type} {m : Host.WatchM σ π α} {k : α → Host.WatchM σ π β} {x : α}
    {c c' : Session σ π × List WatchEvent} (h : m c = (x, c')) : (m >>= k) c = k x c' := by
  show StateT.bind m k c = _
  rw [StateT.bind, show m c = (x, c') from h]
  rfl

/-- A change that is taken is invalidated, transformed and reported. -/
theorem applyChange_true {path : Path} {s'' : Session σ π} {b : Bool}
    (hinv : W.host.invalidate path s = .ok true s')
    (htrans : W.host.transformSource path s' = .ok b s'') (es : List WatchEvent) :
    W.host.applyChange path (s, es) = (true, s'', es ++ [.fileChanged path.text]) := by
  rw [Host.applyChange, WatchM.bind_eq (attempt_ok hinv es)]
  refine (WatchM.bind_eq (show Host.watched _ (s', es) = ((), s', es ++ [_]) from rfl)).trans ?_
  refine (WatchM.bind_eq (attempt_ok htrans _)).trans ?_
  rfl

/-- A change that leaves the source as it was is neither transformed nor reported. -/
theorem applyChange_false {path : Path} (hinv : W.host.invalidate path s = .ok false s')
    (es : List WatchEvent) : W.host.applyChange path (s, es) = (false, s', es) := by
  rw [Host.applyChange, WatchM.bind_eq (attempt_ok hinv es)]
  rfl

/-- What taking changes leaves behind: if one is taken the session has to flush, and if none is the
    recorded files are as they were. -/
structure Taken (W : SeparateHost σ π) (dirty : Path → Prop) (s : Session σ π) (a : Accumulator)
    (flushed : Bool) (taken : Bool) (s' : Session σ π) : Prop where
  log : W.log s'.bench.world = W.log s.bench.world
  upto : ∃ a' pending' flushed', W.Upto dirty s' a' pending' flushed' ∧
    (taken = true → flushed' = false) ∧ (flushed = false → flushed' = false) ∧
    (taken = false → a'.files = a.files)

/-- What is dirty only until its change is taken is clean afterwards. -/
theorem Upto.cleaned {r : Path} (h : W.Upto (fun q => (dirty q ∨ q = r) ∧ q ≠ r) s a pending flushed) :
    W.Upto (fun q => dirty q ∧ q ≠ r) s a pending flushed :=
  h.mono fun _ _ ⟨hd, hne⟩ => ⟨hd.resolve_right hne, hne⟩

/-- A change of a source that is there when it is read again: its declarations are made anew. -/
theorem applyChange_held (h : W.Upto dirty s a pending flushed) {path : Path}
    (hh : W.host.handles s path = true) {refreshed : Bool} {s₁ : Session σ π}
    (hr : W.Reread (sourceId path) s refreshed s₁) {f : SourceFile} (hf : f ∈ W.sources s₁.program)
    (he : f.path = sourceId path) (es : List WatchEvent) :
    ∃ s' es', W.host.applyChange path (s, es) = (true, s', es') ∧
      W.Taken (fun q => dirty q ∧ q ≠ sourceId path) s a flushed true s' := by
  obtain ⟨s₂, hinv, hs₂, hat₂⟩ := invalidate_held h.toAt hh hr hf he.symm
  have hf₂ : f ∈ W.sources s₂.program := by
    rw [hs₂.sources]
    exact hf
  obtain ⟨s₃, htrans, hs₃, hat₃⟩ := transformSource_eq hat₂ hf₂ he.symm
  have hup := (h.reread hr).record hf (hs₂.trans hs₃) hat₃
  rw [he] at hup
  exact ⟨s₃, _, applyChange_true hinv htrans es, (hs₂.trans hs₃).log.trans hr.log, _, _, _, hup.cleaned,
    fun _ => rfl, fun _ => rfl, fun hf => absurd hf (by decide)⟩

/-- A change of a source that is gone when it is read again: its declarations are dropped. -/
theorem applyChange_gone (h : W.Upto dirty s a pending flushed) {path : Path}
    (hh : W.host.handles s path = true) {refreshed : Bool} {s₁ : Session σ π}
    (hr : W.Reread (sourceId path) s refreshed s₁)
    (hgone : ∀ f ∈ W.sources s₁.program, f.path ≠ sourceId path) (es : List WatchEvent) :
    ∃ taken s' es', W.host.applyChange path (s, es) = (taken, s', es') ∧
      W.Taken (fun q => dirty q ∧ q ≠ sourceId path) s a flushed taken s' := by
  obtain ⟨s₂, taken, hinv, hs₂, hat₂, hdropped⟩ := invalidate_gone h.toAt hh hr hgone
  have hup := ((h.reread hr).forget (normalize_sourceId path) hgone hs₂ hat₂).cleaned
  have hlog := hs₂.log.trans hr.log
  cases taken with
  | true =>
      have htrans : W.host.transformSource path s₂ = .ok false s₂ :=
        transformSource_gone hat₂ (by rw [hs₂.sources]; exact hgone)
      exact ⟨true, s₂, _, applyChange_true hinv htrans es, hlog, _, _, _, hup, fun _ => rfl, fun _ => rfl,
        fun hf => absurd hf (by decide)⟩
  | false =>
      refine ⟨false, s₂, es, applyChange_false hinv es, hlog, _, _, _, hup, fun hf => absurd hf (by decide),
        id, fun hf => ?_⟩
      rw [Accumulator.forget, hdropped hf]
      rfl

/-- **One change** cleans its path, whatever the path is. -/
theorem applyChange_spec (h : W.Upto dirty s a pending flushed) (path : Path) (es : List WatchEvent) :
    ∃ taken s' es', W.host.applyChange path (s, es) = (taken, s', es') ∧
      W.Taken (fun q => dirty q ∧ q ≠ sourceId path) s a flushed taken s' := by
  cases hh : W.host.handles s path with
  | false =>
      have hgone (f : SourceFile) (hf : f ∈ W.sources s.program) : f.path ≠ sourceId path := by
        intro he
        rw [handles_of_mem h.toAt hf he.symm] at hh
        exact absurd hh (by decide)
      exact ⟨false, s, es, applyChange_false (invalidate_other hh) es, rfl, a, pending, flushed,
        h.clean_of_not_handled hh hgone, fun hf => absurd hf (by decide), id, fun _ => rfl⟩
  | true =>
      obtain ⟨refreshed, s₁, hr⟩ := exists_reread h.program (normalize_sourceId path)
      -- Only now is it settled whether the source is there: reading it again may take it in or drop it.
      by_cases hheld : ∃ f ∈ W.sources s₁.program, f.path = sourceId path
      · obtain ⟨f, hf, he⟩ := hheld
        exact ⟨true, applyChange_held h hh hr hf he es⟩
      · exact applyChange_gone h hh hr (fun f hf he => hheld ⟨f, hf, he⟩) es

/-- Some changes clean their paths. -/
theorem takeChanges_spec (h : W.Upto dirty s a pending flushed) (paths : List Path)
    (es : List WatchEvent) :
    ∃ taken s' es', W.host.takeChanges paths (s, es) = (taken, s', es') ∧
      W.Taken (fun q => dirty q ∧ ∀ c ∈ paths, q ≠ sourceId c) s a flushed taken s' := by
  induction paths generalizing s a pending flushed dirty es with
  | nil =>
      exact ⟨false, s, es, rfl, rfl, a, pending, flushed,
        h.mono fun q _ hd => ⟨hd, fun c hc => absurd hc (by simp)⟩,
        fun hf => absurd hf (by decide), id, fun _ => rfl⟩
  | cons c paths ih =>
      obtain ⟨taken, s₁, es₁, hrun₁, hs₁, a₁, pending₁, flushed₁, hup₁, ht₁, hf₁, ha₁⟩ :=
        applyChange_spec h c es
      obtain ⟨others, s₂, es₂, hrun₂, hs₂, a₂, pending₂, flushed₂, hup₂, ht₂, hf₂, ha₂⟩ := ih hup₁ es₁
      refine ⟨taken || others, s₂, es₂, ?_, ?_, a₂, pending₂, flushed₂, ?_, ?_, ?_, ?_⟩
      · rw [Host.takeChanges, WatchM.bind_eq hrun₁, WatchM.bind_eq hrun₂]
        rfl
      · rw [hs₂, hs₁]
      · refine hup₂.mono fun q _ ⟨⟨hd, hc⟩, hrest⟩ => ⟨hd, fun r hr => ?_⟩
        rcases List.mem_cons.mp hr with rfl | hr
        · exact hc
        · exact hrest r hr
      · intro ht
        cases others with
        | true => exact ht₂ rfl
        | false => exact hf₂ (ht₁ (by simpa using ht))
      · exact fun hf => hf₂ (hf₁ hf)
      · intro ht
        obtain ⟨htaken, hothers⟩ := Bool.or_eq_false_iff.mp ht
        rw [ha₂ hothers, ha₁ htaken]

/-! ## A flush -/

/-- No path is dirty. -/
abbrev clean : Path → Prop := fun _ => False

/-- The pending sources of a flush leave everything up to date. -/
theorem flushSources_spec (h : W.Upto clean s a pending flushed) {fs : List SourceFile}
    (hfs : ∀ f ∈ fs, f ∈ W.sources s.program) :
    ∃ s' a' pending', W.host.flushSources fs s = .ok () s' ∧ W.Follows s s' ∧
      W.Upto clean s' a' pending' flushed := by
  induction fs generalizing s a pending with
  | nil => exact ⟨s, a, pending, rfl, .refl s, h⟩
  | cons f fs ih =>
      have hf := hfs f List.mem_cons_self
      obtain ⟨s₁, a₁, pending₁, hrun₁, hs₁, hat₁, ha₁⟩ := flushSource_eq h.toAt hf
      have hup₁ : W.Upto clean s₁ a₁ pending₁ flushed := by
        rcases ha₁ with rfl | rfl
        · refine ⟨hat₁, fun q hq hn => ?_⟩
          rw [hs₁.sources]
          exact h.current q hq hn
        · exact (h.record hf hs₁ hat₁).mono fun _ _ hd => hd.1
      obtain ⟨s₂, a₂, pending₂, hrun₂, hs₂, hup₂⟩ := ih hup₁ fun g hg => by
        rw [hs₁.sources]
        exact hfs g (List.mem_cons_of_mem f hg)
      refine ⟨s₂, a₂, pending₂, ?_, hs₁.trans hs₂, hup₂⟩
      rw [Host.flushSources, SessionM.bind_ok hrun₁, hrun₂]

/-- The snapshot depends on the recorded files alone. -/
theorem snapshot_eq {a' : Accumulator} (h : a.files.entries = a'.files.entries) :
    a.snapshot = a'.snapshot := by
  rw [Accumulator.snapshot, Accumulator.snapshot, h]

/-- **A flush** of a session that is up to date writes the files of what is recorded. -/
theorem writeBundle_spec (h : W.Upto clean s a pending false) :
    ∃ r s' a' pending', W.host.writeBundle s = .ok (some r) s' ∧ W.Upto clean s' a' pending' true ∧
      a'.files.entries = a.files.entries ∧ W.sources s'.program = W.sources s.program ∧
      W.log s'.bench.world = W.log s.bench.world ++ W.filesOf a.snapshot := by
  -- One session for each step: the flush begun, told, the sources recorded, the phase told, the files written.
  let s₀ : Session σ π := { s with build := some (W.build a pending true) }
  have hreport : Writes W.log (WorkM.report .started) () [] := .report _
  obtain ⟨b₁, hrun₁, hlog₁⟩ := hreport.work s₀
  let s₁ : Session σ π := { s₀ with bench := b₁ }
  have hup₁ : W.Upto clean s₁ a pending true := ⟨⟨rfl, h.program, h.recorded⟩, h.current⟩
  obtain ⟨s₂, a₂, pending₂, hrun₂, hs₂, hup₂⟩ := flushSources_spec hup₁ fun f hf => hf
  have hphase : Writes W.log (WorkM.phase "emit output patch") () [] := .phase _
  obtain ⟨b₃, hrun₃, hlog₃⟩ := hphase.work s₂
  let s₃ : Session σ π := { s₂ with bench := b₃ }
  have hstarted : SessionM.started s₃ = .ok (W.build a₂ pending₂ true) s₃ :=
    SessionM.started_eq hup₂.build
  obtain ⟨r, hwrites⟩ := writes_writeRecorded hup₂.program a₂ pending₂ true s₂.version
  obtain ⟨b₄, hrun₄, hlog₄⟩ := hwrites.work s₃
  have hsame : a₂.files.entries = a.files.entries := by
    refine entries_eq hup₂.recorded h.recorded (fun q hq => hup₂.current q hq id) fun q hq => ?_
    rw [hs₂.sources]
    exact h.current q hq id
  refine ⟨r, { s₃ with bench := b₄ }, a₂, pending₂, ?_,
    ⟨⟨hup₂.build, hup₂.program, hup₂.recorded⟩, hup₂.current⟩, hsame, hs₂.sources, ?_⟩
  · rw [Host.writeBundle, SessionM.bind_ok (SessionM.started_eq h.build)]
    refine (SessionM.bind_ok (show SessionM.setBuild _ s = .ok () s₀ from rfl)).trans ?_
    refine (SessionM.bind_ok hrun₁).trans ?_
    refine (SessionM.get_bind _ s₁).trans ?_
    refine (SessionM.bind_ok hrun₂).trans ?_
    refine (SessionM.bind_ok hrun₃).trans ?_
    refine (SessionM.get_bind _ s₃).trans ?_
    refine (SessionM.bind_ok hstarted).trans ?_
    exact SessionM.bind_ok hrun₄
  · have hlog : W.log s₂.bench.world = W.log s.bench.world := by
      rw [hs₂.log, hlog₁, List.append_nil]
    rw [hlog₄, hlog₃, List.append_nil, hlog, snapshot_eq hsame]

/-! ## A clean build -/

/-- The aliases are those of the configuration, whichever program is held. -/
theorem aliases_eq {p : π} (hp : W.Programs p) : W.host.aliases p = W.aliases := by
  rw [Host.aliases, W.options_eq hp]
  rfl

theorem writes_reportDiagnostics (ds : List Diagnostic) :
    Writes W.log (Host.reportDiagnostics ds) () [] := by
  unfold Host.reportDiagnostics
  split
  · exact .pure ()
  · exact .report _

/-- Work that writes nothing, in front of more: what holds of the rest on any bench with the same log
    holds of both. -/
theorem work_elim {α β : Type} (W : SeparateHost σ π)
    (P : EStateM.Result BuildError (Session σ π) β → Prop) {op : WorkM σ α}
    {k : α → SessionM σ π β} {x : α} (h : Writes W.log op x [])
    (hk : ∀ b, W.log b.world = W.log s.bench.world → P (k x { s with bench := b })) :
    P ((SessionM.work op >>= k) s) := by
  obtain ⟨b, hb, hl⟩ := h.work s
  rw [SessionM.bind_ok hb]
  exact hk b (by rw [hl, List.append_nil])

/-- A report that is made under a condition writes nothing, made or not. -/
theorem work_if_elim {β : Type} (W : SeparateHost σ π)
    (P : EStateM.Result BuildError (Session σ π) β → Prop) {c : Prop} {_ : Decidable c}
    {op : WorkM σ Unit} {k : Unit → SessionM σ π β} (h : Writes W.log op () [])
    (hk : ∀ b, W.log b.world = W.log s.bench.world → P (k () { s with bench := b })) :
    P ((if c then SessionM.work op >>= k else k ()) s) := by
  split
  · exact work_elim W P h hk
  · exact hk s.bench rfl

/-- A started session has recorded nothing. -/
theorem start_eq (w : σ) {p : π} (hp : W.Programs p) :
    ∃ s' pending', W.host.start (Session.create w p) = .ok () s' ∧
      W.Follows (Session.create w p) s' ∧ W.At s' {} pending' false := by
  let P (r : EStateM.Result BuildError (Session σ π) Unit) : Prop :=
    ∃ s' pending', r = .ok () s' ∧ W.Follows (Session.create w p) s' ∧ W.At s' {} pending' false
  have hbuild : ({
      pending := W.host.pending p W.filter
      publicRoot := W.host.publicRoot p
      entryRoot := W.host.entryRoot (W.host.publicRoot p)
      steps := ⟨W.host.aliases p, W.host.options.clearSideEffects, W.host.options.consolidate⟩
      filter := W.filter } : Build) = W.build {} (W.host.pending p W.filter) false := by
    rw [publicRoot_eq hp, aliases_eq hp]
    rfl
  show P (W.host.start (Session.create w p))
  have hnew : ¬ (Session.create w p : Session σ π).build.isSome = true := Bool.false_ne_true
  rw [Host.start, SessionM.get_bind, if_neg hnew, SessionM.get_bind]
  refine work_if_elim W P (.report _) fun b₁ hb₁ => ?_
  refine work_elim W P (x := W.filter) (by rw [W.filter_eq]; exact .ofExcept _) fun b₂ hb₂ => ?_
  refine work_elim W P (.phase _) fun b₃ hb₃ => ?_
  refine work_elim W P (writes_reportDiagnostics _) fun b₄ hb₄ => ?_
  refine work_elim W P (x := ()) (by rw [W.noHooks]; exact .ofExcept _) fun b₅ hb₅ => ?_
  have hphase : Writes W.log (WorkM.phase "create program") () [] := .phase _
  let s₆ : Session σ π := { Session.create w p with
    bench := b₅
    build := some (W.build {} (W.host.pending p W.filter) false) }
  obtain ⟨b₆, hrun, hb₆⟩ := hphase.work s₆
  refine ⟨{ s₆ with bench := b₆ }, W.host.pending p W.filter, ?_, ⟨rfl, ?_⟩, rfl, hp, recorded_empty⟩
  · refine (SessionM.bind_ok (a := ()) ?_).trans hrun
    exact congrArg (fun b => EStateM.Result.ok () { s₆ with build := some b }) hbuild
  · rw [hb₆, List.append_nil, hb₅, hb₄, hb₃, hb₂, hb₁]

/-- Transforming the sources of a program cleans their paths. -/
theorem transformAll_spec (h : W.Upto dirty s a pending flushed) {fs : List SourceFile}
    (hfs : ∀ f ∈ fs, f ∈ W.sources s.program) :
    ∃ n s' a' pending', W.host.transformAll fs s = .ok n s' ∧ W.Follows s s' ∧
      W.Upto (fun q => dirty q ∧ ∀ f ∈ fs, q ≠ f.path) s' a' pending' flushed := by
  induction fs generalizing s a pending dirty with
  | nil =>
      exact ⟨0, s, a, pending, rfl, .refl s, h.mono fun q _ hd => ⟨hd, fun f hf => absurd hf (by simp)⟩⟩
  | cons f fs ih =>
      have hf := hfs f List.mem_cons_self
      obtain ⟨s₁, hrun₁, hs₁, hat₁⟩ := transform_eq h.toAt hf f.text
      obtain ⟨n, s₂, a₂, pending₂, hrun₂, hs₂, hup₂⟩ := ih (h.record hf hs₁ hat₁) fun g hg => by
        rw [hs₁.sources]
        exact hfs g (List.mem_cons_of_mem f hg)
      refine ⟨n + 1, s₂, a₂, pending₂, ?_, hs₁.trans hs₂, ?_⟩
      · rw [Host.transformAll, SessionM.bind_ok hrun₁, SessionM.bind_ok hrun₂]
        rfl
      · refine hup₂.mono fun q _ ⟨⟨hd, hc⟩, hrest⟩ => ⟨hd, fun g hg => ?_⟩
        rcases List.mem_cons.mp hg with rfl | hg
        · exact hc
        · exact hrest g hg

/-- The sources that a flush may load are those of the program. -/
theorem loadable_eq (h : W.At s a pending flushed) :
    W.host.loadable s.program (W.build a pending flushed) = W.sources s.program := by
  rw [Host.loadable, List.filter_eq_self]
  intro f hf
  have htaken := W.taken h.program hf
  rw [htaken.notDeclaration, W.own h.program hf, htaken.script]
  rfl

/-- **A clean build** succeeds and writes the files of recorded outputs that are up to date. -/
theorem cleanBuild_spec (w : σ) {p : π} (hp : W.Programs p) :
    ∃ r s a pending, W.host.cleanBuild (Session.create w p) = .ok (some r) s ∧
      W.Upto clean s a pending true ∧ W.sources s.program = W.sources p ∧
      W.log s.bench.world = W.log w ++ W.filesOf a.snapshot := by
  obtain ⟨s₁, pending₁, hrun₁, hs₁, hat₁⟩ := start_eq w hp
  -- Before the first source is transformed every source is dirty, and nothing else is.
  have hup₁ : W.Upto (fun q => ∃ f ∈ W.sources s₁.program, f.path = q) s₁ {} pending₁ false :=
    ⟨hat₁, fun q _ hn => current_empty fun f hf he => hn ⟨f, hf, he⟩⟩
  obtain ⟨n, s₂, a₂, pending₂, hrun₂, hs₂, hup₂⟩ := transformAll_spec hup₁ fun f hf => hf
  have hclean : W.Upto clean s₂ a₂ pending₂ false :=
    hup₂.mono fun q _ ⟨⟨f, hf, he⟩, hne⟩ => hne f hf he.symm
  obtain ⟨r, s₃, a₃, pending₃, hrun₃, hup₃, hfiles, hsources, hlog⟩ := writeBundle_spec hclean
  have htransform : W.host.transformSources s₁ = .ok n s₂ := by
    rw [Host.transformSources, SessionM.bind_ok (SessionM.started_eq hat₁.build)]
    refine (SessionM.get_bind _ s₁).trans ?_
    rw [loadable_eq hat₁]
    exact hrun₂
  have hfirst : W.host.firstBuild (Session.create w p) = .ok () s₂ := by
    rw [Host.firstBuild, SessionM.bind_ok hrun₁, SessionM.bind_ok htransform]
    rfl
  refine ⟨r, s₃, a₃, pending₃, ?_, hup₃, ?_, ?_⟩
  · rw [Host.cleanBuild, SessionM.bind_ok hfirst, hrun₃]
  · rw [hsources, hs₂.sources, hs₁.sources]
    rfl
  · rw [hlog, hs₂.log, hs₁.log, snapshot_eq hfiles]
    rfl

/-! ## Any number of rounds -/

/-- The writes between two worlds. -/
def since (W : SeparateHost σ π) (before after : σ) : List OutputFile :=
  (W.log after).drop (W.log before).length

/-- What was written since is what the log has more of. -/
theorem since_eq {before after : σ} {l : List OutputFile} (h : W.log after = W.log before ++ l) :
    W.since before after = l := by
  rw [since, h, List.drop_left]

/-- The program has changed at some paths only: a source that is named by none of them was there before
    if and only if it is there now. -/
def Edited (W : SeparateHost σ π) (paths : List Path) (p p' : π) : Prop :=
  ∀ f : SourceFile, f.path ∉ paths → (f ∈ W.sources p ↔ f ∈ W.sources p')

/-- The sessions that a clean build and any number of rounds lead to, with the writes of the last flush.
    In a round sources are added, edited and deleted, and the session is told the changed paths, in any
    order and possibly among others. -/
inductive Reached (W : SeparateHost σ π) : Session σ π → List OutputFile → Prop where
  | first {w : σ} {p : π} {r : Option Report} {s : Session σ π} (hp : W.Programs p)
      (hrun : W.host.cleanBuild (Session.create w p) = .ok r s) :
      Reached W s (W.since w s.bench.world)
  | round {s s' : Session σ π} {last : List OutputFile} {p : π} {paths : List Path} {taken : Bool}
      {es es' : List WatchEvent} (hr : Reached W s last) (hp : W.Programs p)
      (he : W.Edited paths s.program p)
      (hrun : W.host.applyChanges paths ({ s with program := p }, es) = (taken, s', es')) :
      Reached W s' (if taken then W.since s.bench.world s'.bench.world else last)

/-- An edit makes the changed paths dirty. -/
theorem Upto.edit (h : W.Upto clean s a pending flushed) {p : π} {paths : List Path}
    (hp : W.Programs p) (he : W.Edited paths s.program p) :
    W.Upto (fun q => q ∈ paths ∧ '?' ∉ q.text) { s with program := p } a pending flushed := by
  refine ⟨⟨h.build, hp, h.recorded⟩, fun q hq hn => (h.current q hq id).congr ?_⟩
  rintro f rfl
  by_cases hmem : f.path ∈ paths
  · -- A path with a query is no source's.
    have hquery : ¬ '?' ∉ f.path.text := fun hq => hn ⟨hmem, hq⟩
    constructor
    · exact fun hf => absurd (W.taken h.program hf).noQuery hquery
    · exact fun hf => absurd (W.taken hp hf).noQuery hquery
  · exact he f hmem

/-- A flush with its report. -/
theorem rebuild_spec (h : W.Upto clean s a pending false) (es : List WatchEvent) :
    ∃ s' es' a' pending', W.host.rebuild (s, es) = ((), s', es') ∧ W.Upto clean s' a' pending' true ∧
      a'.files.entries = a.files.entries ∧
      W.log s'.bench.world = W.log s.bench.world ++ W.filesOf a.snapshot := by
  obtain ⟨r, s', a', pending', hrun, hup, hfiles, -, hlog⟩ := writeBundle_spec h
  refine ⟨s', es ++ [.rebuildStarted] ++ [.rebuildComplete r.fileCount 0], a', pending', ?_, hup, hfiles,
    hlog⟩
  rw [Host.rebuild]
  refine (WatchM.bind_eq (show Host.watched _ (s, es) = ((), s, es ++ [_]) from rfl)).trans ?_
  refine (WatchM.bind_eq (attempt_ok hrun _)).trans ?_
  rfl

/-- A batch with a change in it is followed by one rebuild. -/
theorem applyChanges_true {paths : List Path} {s'' : Session σ π} {es es' es'' : List WatchEvent}
    (h : W.host.takeChanges paths (s, es) = (true, s', es'))
    (hr : W.host.rebuild (s', es') = ((), s'', es'')) :
    W.host.applyChanges paths (s, es) = (true, s'', es'') := by
  rw [Host.applyChanges, WatchM.bind_eq h]
  exact WatchM.bind_eq hr

/-- A batch without a change in it is followed by none. -/
theorem applyChanges_false {paths : List Path} {es es' : List WatchEvent}
    (h : W.host.takeChanges paths (s, es) = (false, s', es')) :
    W.host.applyChanges paths (s, es) = (false, s', es') := by
  rw [Host.applyChanges, WatchM.bind_eq h]
  rfl

/-- Between rounds everything is up to date, and the last writes are the files of what is recorded. -/
theorem Reached.upto {last : List OutputFile} (h : W.Reached s last) :
    ∃ a pending flushed, W.Upto clean s a pending flushed ∧ last = W.filesOf a.snapshot := by
  induction h with
  | @first w p r s hp hrun =>
      obtain ⟨r', s', a, pending, hrun', hup, -, hlog⟩ := cleanBuild_spec w hp
      rw [hrun] at hrun'
      cases hrun'
      exact ⟨a, pending, true, hup, since_eq hlog⟩
  | @round s s' last p paths taken es es' hr hp he hrun ih =>
      obtain ⟨a, pending, flushed, hup, hlast⟩ := ih
      obtain ⟨taken', s₁, es₁, hrun₁, hs₁, a₁, pending₁, flushed₁, hup₁, ht₁, -, ha₁⟩ :=
        takeChanges_spec (hup.edit hp he) paths es
      have hclean : W.Upto clean s₁ a₁ pending₁ flushed₁ := hup₁.mono fun q hq ⟨⟨hmem, hquery⟩, hne⟩ =>
        hne q hmem (sourceId_eq hq hquery).symm
      cases taken' with
      | true =>
          rw [ht₁ rfl] at hclean
          obtain ⟨s₂, es₂, a₂, pending₂, hrun₂, hup₂, hfiles, hlog⟩ := rebuild_spec hclean es₁
          rw [applyChanges_true hrun₁ hrun₂] at hrun
          cases hrun
          refine ⟨a₂, pending₂, true, hup₂, ?_⟩
          rw [snapshot_eq hfiles]
          exact since_eq (hlog.trans (congrArg (· ++ _) hs₁))
      | false =>
          rw [applyChanges_false hrun₁] at hrun
          cases hrun
          refine ⟨a₁, pending₁, flushed₁, hclean, ?_⟩
          show last = _
          rw [hlast, Accumulator.snapshot, Accumulator.snapshot, ha₁ rfl]

/-- **Rebuilding is building anew.** After a clean build and any number of rounds, a clean build of the
    program as it is then succeeds, and writes what the last flush has written. -/
theorem rebuild_eq_clean {last : List OutputFile} (h : W.Reached s last) (w : σ) :
    ∃ r s', W.host.cleanBuild (Session.create w s.program) = .ok (some r) s' ∧
      W.since w s'.bench.world = last := by
  obtain ⟨a, pending, flushed, hup, rfl⟩ := h.upto
  obtain ⟨r, s', a', pending', hrun, hup', hsources, hlog⟩ := cleanBuild_spec w hup.program
  refine ⟨r, s', hrun, ?_⟩
  rw [since_eq hlog]
  refine congrArg W.filesOf (snapshot_eq ?_)
  refine entries_eq hup'.recorded hup.recorded (fun q hq => hup'.current q hq id) fun q hq => ?_
  rw [hsources]
  exact hup.current q hq id

/-- A round that flushes. -/
theorem Reached.flush {last : List OutputFile} (h : W.Reached s last) {p : π} {paths : List Path}
    {es : List WatchEvent} {c : Bool × Session σ π × List WatchEvent} (hp : W.Programs p)
    (he : W.Edited paths s.program p)
    (hc : W.host.applyChanges paths ({ s with program := p }, es) = c) (ht : c.1 = true) :
    W.Reached c.2.1 (W.since s.bench.world c.2.1.bench.world) := by
  obtain ⟨taken, s', es'⟩ := c
  have hr := Reached.round h hp he hc
  rw [show taken = true from ht] at hr
  exact hr

/-! ## Tables of sources -/

/-- The declaration of a source lies as the source does, and repeats its text. -/
def tableEmission (q : Path) (t : Text) : List EmittedFile :=
  [⟨⟨ScriptName.stripScript (Path.relative "/p/src" q).text ++ ".d.ts"⟩, t⟩]

/-- A program of some sources, after a number of emissions. -/
def tableProgram (fs : List SourceFile) (n : Nat) : DryRun.TableProgram where
  currentDir := "/p/types"
  options := { rootDir := some "/p/src" }
  sources := fs
  emits := fs.flatMap fun f => (tableEmission f.path f.text).map (f.path, ·)
  emitCalls := n

/-- The sources before an edit. -/
def firstSources : List SourceFile := [⟨"/p/src/a.ts", "one"⟩, ⟨"/p/src/b.ts", "two"⟩]

/-- The sources after it: one is edited, one is deleted and one is added. -/
def editedSources : List SourceFile := [⟨"/p/src/a.ts", "three"⟩, ⟨"/p/src/c.ts", "four"⟩]

/-- Everything below the project but installed packages. -/
def tableFilter : SourceFilter :=
  match SourceFilter.ofGlobs "/p" SourceFilter.defaultInclude SourceFilter.defaultExclude with
  | .ok f => f
  | .error _ => ⟨"/p", [], []⟩

theorem tableFilter_eq :
    SourceFilter.ofGlobs "/p" SourceFilter.defaultInclude SourceFilter.defaultExclude
      = .ok tableFilter := by
  have hok : (SourceFilter.ofGlobs "/p" SourceFilter.defaultInclude
      SourceFilter.defaultExclude).isOk = true := by decide +kernel
  unfold tableFilter
  cases h : SourceFilter.ofGlobs "/p" SourceFilter.defaultInclude SourceFilter.defaultExclude with
  | ok f => rfl
  | error e =>
      rw [h] at hok
      exact absurd hok Bool.false_ne_true

/-- What is asked of a table of sources. -/
def TableOk (fs : List SourceFile) : Prop :=
  (tableProgram fs 0).files.entries = fs.map (fun f => (f.path, f)) ∧
  (fs.Pairwise fun f g => f.path.compare g.path = .lt) ∧
  (∀ f ∈ fs, f.isScript = true ∧ f.isDeclaration = false ∧ f.path.normalize = f.path ∧
    '?' ∉ f.path.text ∧ tableFilter.accepts f.path = true ∧
    (tableProgram fs 0).files.get? (Host.sidecar f.path) = none ∧
    (tableProgram fs 0).emitted f.path = tableEmission f.path f.text) ∧
  ∀ f ∈ fs, ∀ g ∈ fs, f.path ≠ g.path → ∀ d ∈ tableEmission f.path f.text,
    ∀ e ∈ tableEmission g.path g.text,
      Path.resolve "/p/src" (Path.relative "/p/types" (Path.resolve "/p/types" d.name))
        ≠ Path.resolve "/p/src" (Path.relative "/p/types" (Path.resolve "/p/types" e.name))

instance (fs : List SourceFile) : Decidable (TableOk fs) := inferInstanceAs (Decidable (_ ∧ _))

theorem tableOk_of_mem {fs : List SourceFile} (h : fs ∈ [firstSources, editedSources]) : TableOk fs := by
  revert fs
  decide +kernel

/-- The program of a table holds the sources of the table. -/
theorem mem_sources_tableProgram {fs : List SourceFile} (h : TableOk fs) {n : Nat} {f : SourceFile} :
    f ∈ (tableProgram fs n).files.values ↔ f ∈ fs := by
  have hvalues : (tableProgram fs n).files.values = (tableProgram fs 0).files.entries.map (·.2) := rfl
  rw [hvalues, h.1, List.map_map]
  simp [Function.comp_def]

/-- In the program of a table a source is found at its own path. -/
theorem source?_tableProgram {fs : List SourceFile} (h : TableOk fs) {n : Nat} {q : Path}
    {f : SourceFile} (hq : q.normalize = q) :
    (tableProgram fs n).files.get? q = some f ↔ f ∈ (tableProgram fs n).files.values ∧ f.path = q := by
  have hentries : (tableProgram fs n).files.entries = fs.map (fun f => (f.path, f)) := h.1
  have hordered : (tableProgram fs n).files.Ordered := by
    rw [PathMap.Ordered, hentries, List.pairwise_map]
    exact h.2.1
  have hfolded : (tableProgram fs n).files.Folded := by
    intro p hp
    rw [PathMap.keys, hentries, List.map_map] at hp
    obtain ⟨g, hg, rfl⟩ := List.mem_map.mp hp
    exact (h.2.2.1 g hg).2.2.1
  rw [PathMap.get?_eq_some_iff hordered hfolded hq, hentries, mem_sources_tableProgram h, List.mem_map]
  constructor
  · rintro ⟨g, hg, heq⟩
    cases heq
    exact ⟨hg, rfl⟩
  · rintro ⟨hf, rfl⟩
    exact ⟨f, hf, rfl⟩

/-- A host of tables, with the built-in resolvers and files in memory. -/
def tableHost : SeparateHost (Files.Memory × List OutputFile) DryRun.TableProgram where
  host :=
    { options := .ofRoot "/p"
      files := Files.Memory.store.logged
      compiler := DryRun.TableProgram.compiler
      registry := .withBuiltIns [] }
  log := Prod.snd
  filter := tableFilter
  options := { rootDir := some "/p/src" }
  rootDir := "/p/src"
  currentDir := "/p/types"
  emission := tableEmission
  Programs t := ∃ fs ∈ [firstSources, editedSources], ∃ n, t = tableProgram fs n
  filter_eq := tableFilter_eq
  rootDir_eq := rfl
  noTypesEntry := rfl
  noRollup := rfl
  noCopies := rfl
  noHooks := rfl
  noResolver _ := dispatch?_builtIns
  keeps := Files.keeps_logged (fun _ _ _ => ⟨_, rfl⟩) fun _ _ => ⟨_, rfl⟩
  options_eq := by
    rintro _ ⟨fs, hfs, n, rfl⟩
    rfl
  currentDir_eq := by
    rintro _ ⟨fs, hfs, n, rfl⟩
    rfl
  taken := by
    rintro _ f ⟨fs, hfs, n, rfl⟩ hf
    have hok := tableOk_of_mem hfs
    obtain ⟨hs, hd, hp, hq, ha, -⟩ := hok.2.2.1 f ((mem_sources_tableProgram hok).mp hf)
    exact ⟨hs, hd, hp, hq, ha⟩
  own := by
    rintro _ f ⟨fs, hfs, n, rfl⟩ hf
    rfl
  source?_iff := by
    rintro _ q f ⟨fs, hfs, n, rfl⟩ hq
    exact source?_tableProgram (tableOk_of_mem hfs) hq
  noSidecar := by
    rintro _ f ⟨fs, hfs, n, rfl⟩ hf
    have hok := tableOk_of_mem hfs
    exact (hok.2.2.1 f ((mem_sources_tableProgram hok).mp hf)).2.2.2.2.2.1
  emit := by
    rintro _ f ⟨fs, hfs, n, rfl⟩ hf w
    have hok := tableOk_of_mem hfs
    exact ⟨(hok.2.2.1 f ((mem_sources_tableProgram hok).mp hf)).2.2.2.2.2.2, ⟨fs, hfs, n + 1, rfl⟩, rfl⟩
  names_eq _ _ _ := rfl
  refresh := by
    rintro p hp q w -
    refine ⟨_, w, p, rfl, rfl, hp, fun _ _ => .rfl, fun h => ?_⟩
    rw [PathMap.contains_eq]
    exact h
  separate := by
    rintro _ f g ⟨fs, hfs, n, rfl⟩ hf hg hne d hd e he
    have hok := tableOk_of_mem hfs
    have hroot : Path.normalize (Path.resolve "/p" "/p/src") = "/p/src" := by decide +kernel
    have h := hok.2.2.2 f ((mem_sources_tableProgram hok).mp hf) g
      ((mem_sources_tableProgram hok).mp hg) hne d hd e he
    rw [← hroot] at h
    exact h

/-- The session that a step leads to, also when it fails. -/
def stateOf {α : Type} : EStateM.Result BuildError (Session σ π) α → Session σ π
  | .ok _ s | .error _ s => s

/-- The session after a clean build of the first sources. -/
def tableStart : Session (Files.Memory × List OutputFile) DryRun.TableProgram :=
  stateOf (tableHost.host.cleanBuild (Session.create ({}, []) (tableProgram firstSources 0)))

/-- The round that edits the sources. -/
def tableRound :=
  tableHost.host.applyChanges ["/p/src/c.ts", "/p/src/b.ts", "/p/src/a.ts"]
    ({ tableStart with program := tableProgram editedSources 0 }, [])

theorem taken_tableRound : tableRound.1 = true := by decide +kernel

theorem written_tableRound :
    tableHost.since tableStart.bench.world tableRound.2.1.bench.world
      = [⟨"/p/dist/a.d.ts", "three"⟩, ⟨"/p/dist/c.d.ts", "four"⟩] := by decide +kernel

theorem edited_tableRound {p : DryRun.TableProgram}
    (hp : tableHost.sources p = tableHost.sources (tableProgram firstSources 0)) :
    tableHost.Edited ["/p/src/c.ts", "/p/src/b.ts", "/p/src/a.ts"] p (tableProgram editedSources 0) := by
  intro f hf
  have hnamed : ∀ g ∈ firstSources ++ editedSources,
      g.path ∈ (["/p/src/c.ts", "/p/src/b.ts", "/p/src/a.ts"] : List Path) := by decide
  have hok {fs : List SourceFile} (h : fs ∈ [firstSources, editedSources]) :=
    mem_sources_tableProgram (n := 0) (f := f) (tableOk_of_mem h)
  rw [hp]
  refine (hok (by simp)).trans (Iff.trans ?_ (hok (by simp)).symm)
  constructor
  · exact fun h => absurd (hnamed f (List.mem_append_left _ h)) hf
  · exact fun h => absurd (hnamed f (List.mem_append_right _ h)) hf

theorem reached_tableRound :
    tableHost.Reached tableRound.2.1 [⟨"/p/dist/a.d.ts", "three"⟩, ⟨"/p/dist/c.d.ts", "four"⟩] := by
  have hfirst : tableHost.Programs (tableProgram firstSources 0) := ⟨_, by simp, 0, rfl⟩
  have hedited : tableHost.Programs (tableProgram editedSources 0) := ⟨_, by simp, 0, rfl⟩
  obtain ⟨r, s, a, pending, hrun, -, hsources, -⟩ := cleanBuild_spec ({}, []) hfirst
  have hstart : tableStart = s := by rw [tableStart, hrun, stateOf]
  have hreached := Reached.first hfirst hrun
  rw [← hstart] at hreached hsources
  have hround := hreached.flush hedited (edited_tableRound hsources) (c := tableRound) rfl
    taken_tableRound
  rw [written_tableRound] at hround
  exact hround

/-- One edit, one deletion and one addition, told in another order. -/
theorem rebuild_eq_clean_tables :
    ∃ r s', tableHost.host.cleanBuild (Session.create ({}, []) tableRound.2.1.program)
        = .ok (some r) s' ∧
      tableHost.since ({}, []) s'.bench.world
        = [⟨"/p/dist/a.d.ts", "three"⟩, ⟨"/p/dist/c.d.ts", "four"⟩] :=
  rebuild_eq_clean reached_tableRound ({}, [])

end SeparateHost

end Typings
