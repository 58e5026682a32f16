import Typings.DryRun.Rules
import Typings.Proofs.Session.Pending

/-!
# `Failures` — what a resolver that fails leaves behind

A source is taken out of what is pending before its declarations are made.  When its resolver fails, nothing
is recorded for it, and yet it is no longer pending.  No flush asks for it any more, whatever else is called,
until a change of it is taken.

* `Host.Shrinks`: calls that make no place pending.
* `Visits.not_pending`: a place that is not pending stays so until it is armed.
* `Host.failed_transform_lost`: a transformation that fails, and all flushes that follow it.

The state after the failure is given in full, since what is missing shows only later: nothing in the
call's own result says that the source will never be asked for.
-/

namespace Typings

variable {σ π α : Type}

/-- A map stays the same if and only if what is taken out of it is not there. -/
theorem PathMap.erase_eq_self_iff {m : PathMap α} {p : Path} : m.erase p = m ↔ m.contains p = false := by
  constructor
  · intro heq
    rw [← heq, contains_erase, Path.same_self]
    rfl
  · intro hnot
    refine congrArg PathMap.mk (List.filter_eq_self.mpr fun e he => ?_)
    rw [contains, List.any_eq_false] at hnot
    simpa using hnot e he

namespace Host

variable {h : Host σ π} {s s' : Session σ π} {b : Build} {q : Path}

/-! ## What is not pending stays so -/

/-- The session has started, and no place has become pending. -/
def Shrinks (b : Build) (s' : Session σ π) : Prop :=
  ∃ b', s'.build = some b' ∧ ∀ q, b'.pending.contains q = true → b.pending.contains q = true

theorem shrinks_transform (hb : s.build = some b) (path : Path) (code : Text) :
    Shrinks b (outcome (h.transform path code s)).2 := by
  have herase {q : Path} (hq : (b.pending.erase (sourceId path)).contains q = true) :
      b.pending.contains q = true := by
    rw [PathMap.contains_erase, Bool.and_eq_true] at hq
    exact hq.2
  obtain ⟨r, s', hrun, hends⟩ := h.exists_transformEnds hb path code
  rw [hrun]
  cases hends with
  | left => exact ⟨b, hb, fun _ hq => hq⟩
  | made => exact ⟨_, rfl, fun _ => herase⟩
  | failed => exact ⟨_, rfl, fun _ => herase⟩

theorem shrinks_transformAll (hb : s.build = some b) (fs : List SourceFile) :
    Shrinks b (outcome (h.transformAll fs s)).2 := by
  refine transformAll_preserves (P := Shrinks b) (fun s path code hs => ?_) fs ⟨b, hb, fun _ hq => hq⟩
  obtain ⟨b₁, hb₁, hpending₁⟩ := hs
  obtain ⟨b₂, hb₂, hpending₂⟩ := h.shrinks_transform hb₁ path code
  exact ⟨b₂, hb₂, fun q hq => hpending₁ q (hpending₂ q hq)⟩

theorem Shrinks.not_pending (hs : Shrinks b s') (hb : s.build = some b) (hq : ¬ s.Pending q) :
    ¬ s'.Pending q := by
  obtain ⟨b', hb', hpending⟩ := hs
  rw [Session.pending_of_build hb] at hq
  rw [Session.pending_of_build hb']
  exact fun hin => hq (hpending q hin)

theorem not_pending_transform (hnot : ¬ s.Pending q) (path : Path) (code : Text) :
    ¬ (outcome (h.transform path code s)).2.Pending q := by
  cases hb : s.build with
  | none =>
      rw [outcome_transform_none hb]
      exact hnot
  | some b => exact (h.shrinks_transform hb path code).not_pending hb hnot

theorem not_pending_transformSource (hnot : ¬ s.Pending q) (path : Path) :
    ¬ (outcome (h.transformSource path s)).2.Pending q := by
  rcases h.transformSource_cases path s with hleft | ⟨f, -, -, hrun⟩
  · rw [hleft]
    exact hnot
  · rw [hrun]
    exact not_pending_transform hnot (sourceId path) f.text

theorem not_pending_transformSources (hnot : ¬ s.Pending q) :
    ¬ (outcome (h.transformSources s)).2.Pending q := by
  cases hb : s.build with
  | none =>
      have hrun : outcome (h.transformSources s) = (.error .notStarted, s) := by
        rw [transformSources, outcome_bind_error (outcome_started_none hb)]
      rw [hrun]
      exact hnot
  | some b =>
      rw [transformSources, SessionM.bind_ok (SessionM.started_eq hb), SessionM.get_bind]
      exact (h.shrinks_transformAll hb (h.loadable s.program b)).not_pending hb hnot

/-- **One call**: a place that is not pending becomes so only if the call arms it. -/
theorem not_pending_call (hq : q.normalize = q) {v : Visit σ π} (hnot : ¬ v.session.Pending q)
    (harms : ¬ h.Arms v q) : ¬ (h.leave v).Pending q := by
  obtain ⟨c, s⟩ := v
  cases c with
  | start => exact fun hp => ((pending_start hq s).mp hp).elim harms fun hold => hnot hold.1
  | invalidate path =>
      exact fun hp => ((pending_invalidate hq path s).mp hp).elim harms fun hold => hnot hold.1
  | writeBundle => exact fun hp => hnot ((pending_writeBundle hq s).mp hp).1
  | transform path code => exact not_pending_transform hnot path code
  | transformSource path => exact not_pending_transformSource hnot path
  | transformSources => exact not_pending_transformSources hnot

variable {drift : σ → σ → Prop} {visits : List (Visit σ π)}

/-- **Any calls**: a place that is not pending stays so until a call arms it. -/
theorem Visits.not_pending (hv : h.Visits drift s visits s') (hq : q.normalize = q) (hnot : ¬ s.Pending q)
    (hnone : ∀ v ∈ visits, ¬ h.Arms v q) : ¬ s'.Pending q := by
  induction hv with
  | nil => exact hnot
  | call hv c ih =>
      refine not_pending_call hq (ih fun v hv => hnone v (List.mem_append_left _ hv)) ?_
      exact hnone _ (List.mem_append_right _ (List.mem_singleton_self _))
  | drift hv hd ih => exact ih hnone

/-- A flush, skipped or not, asks for pending sources only. -/
theorem asked_writeBundle {log : π → List Path} (hlog : h.compiler.Logs log) (s : Session σ π) :
    ∃ asked, log (outcome (h.writeBundle s)).2.program = log s.program ++ asked ∧
      ∀ p ∈ asked, s.Pending p.normalize := by
  cases hb : s.build with
  | none =>
      have hrun : outcome (h.writeBundle s) = (.error .notStarted, s) := by
        rw [writeBundle, outcome_bind_error (outcome_started_none hb)]
      exact ⟨[], by rw [hrun, List.append_nil], by simp⟩
  | some b =>
      cases hf : b.flushed with
      | true => exact ⟨[], by rw [writeBundle_of_flushed hb hf, List.append_nil], by simp⟩
      | false =>
          obtain ⟨b', calls, notes, hgathers, -⟩ := h.gathers_writeBundle hb hf
          refine ⟨calls.map (·.source), hgathers.emits.log hlog, fun p hp => ?_⟩
          obtain ⟨e, he, rfl⟩ := List.mem_map.mp hp
          obtain ⟨f, -, hpath, -, hpending⟩ := hgathers.sound e he
          exact ⟨b, hb, hpath ▸ hpending⟩

/-! ## A transformation that fails -/

/-- **A transformation that fails** does so in the resolver of the source.  Nothing is recorded, but the source
    is no longer pending; so the build is as it was if and only if the source was not pending before.  Until
    a call arms it, no flush asks for it. -/
theorem failed_transform_lost (hb : s.build = some b) {path : Path} {code : Text} {e : BuildError}
    (hrun : outcome (h.transform path code s) = (.error e, s')) :
    (∃ r, h.registry.dispatch? (sourceId path) = some r ∧
        outcome (r.outputs h.compiler s.bench.world
          ⟨sourceId path, code, b.publicRoot, h.options.outDir⟩ s.program) = (.error e, s'.program)) ∧
      s' = { s with
        program := s'.program
        build := some { b with pending := b.pending.erase (sourceId path) } } ∧
      (s'.build = s.build ↔ b.pending.contains (sourceId path) = false) ∧
      ∀ drift visits s₁, h.Visits drift s' visits s₁ → (∀ v ∈ visits, ¬ h.Arms v (sourceId path)) →
        ¬ s₁.Pending (sourceId path) ∧ ∀ log, h.compiler.Logs log →
          ∃ asked, log (outcome (h.writeBundle s₁)).2.program = log s₁.program ++ asked ∧
            ∀ p ∈ asked, p.normalize ≠ sourceId path := by
  obtain ⟨r, s₁, hrun', hends⟩ := h.exists_transformEnds hb path code
  obtain ⟨rfl, rfl⟩ := Prod.mk.inj (hrun.symm.trans hrun')
  cases hends with
  | @failed _ p _ hd =>
      have hgone : ¬ Session.Pending { s with
          program := p
          build := some { b with pending := b.pending.erase (sourceId path) } } (sourceId path) := by
        rw [Session.pending_of_build rfl, PathMap.contains_erase, Path.same_self]
        exact Bool.false_ne_true
      refine ⟨?_, rfl, ?_, fun drift visits s₁ hv hnone => ?_⟩
      · cases hd with
        | @failed r _ _ hresolver hr => exact ⟨r, hresolver, congrArg outcome hr⟩
      · rw [hb, Option.some_inj, ← PathMap.erase_eq_self_iff]
        constructor
        · exact fun heq => congrArg Build.pending heq
        · exact fun heq => by rw [heq]
      · have hnot := Visits.not_pending hv (normalize_sourceId path) hgone hnone
        refine ⟨hnot, fun log hlog => ?_⟩
        obtain ⟨asked, hasked, hpending⟩ := h.asked_writeBundle hlog s₁
        exact ⟨asked, hasked, fun q hq heq => hnot (heq ▸ hpending q hq)⟩

end Host

/-! ## A resolver that fails -/

/-- Takes scripts to a resolver that fails. -/
def failingHost : Host Files.Memory (DryRun.TableProgram × List Path) :=
  { loggedHost with
    registry := .withBuiltIns [DryRun.ResolverScript.resolver ⟨"ts", "ts", [], some "no declarations"⟩] }

/-- The session of two sources after its start. -/
def failingStarted : Session Files.Memory (DryRun.TableProgram × List Path) :=
  failingHost.leave ⟨.start, twoSources⟩

/-- The session after the transformation of one of its sources, which fails. -/
def failingTransformed : Session Files.Memory (DryRun.TableProgram × List Path) :=
  (outcome (failingHost.transform "/p/src/a.ts" "a" failingStarted)).2

/-- The source is no longer pending, and the flush that would have asked for it does not. -/
theorem failed_source_not_built :
    (outcome (failingHost.transform "/p/src/a.ts" "a" failingStarted)).1
        = .error (.compiler "no declarations") ∧
      (failingStarted.build.map (·.pending.contains "/p/src/a.ts"),
        failingTransformed.build.map (·.pending.contains "/p/src/a.ts")) = (some true, some false) ∧
      (outcome (failingHost.writeBundle failingStarted)).2.program.2
        = (["/p/src/a.ts", "/p/src/b.ts"] : List Path) ∧
      (outcome (failingHost.writeBundle failingTransformed)).2.program.2 = (["/p/src/b.ts"] : List Path) := by
  decide +kernel

theorem failed_transform_lost_twoSources : ∃ b, failingStarted.build = some b ∧
    (∃ r, failingHost.registry.dispatch? (sourceId "/p/src/a.ts") = some r ∧
      outcome (r.outputs failingHost.compiler failingStarted.bench.world
        ⟨sourceId "/p/src/a.ts", "a", b.publicRoot, failingHost.options.outDir⟩ failingStarted.program)
          = (.error (.compiler "no declarations"), failingTransformed.program)) ∧
    failingTransformed = { failingStarted with
      program := failingTransformed.program
      build := some { b with pending := b.pending.erase (sourceId "/p/src/a.ts") } } ∧
    (failingTransformed.build = failingStarted.build ↔
      b.pending.contains (sourceId "/p/src/a.ts") = false) ∧
    ∀ drift visits s₁, failingHost.Visits drift failingTransformed visits s₁ →
      (∀ v ∈ visits, ¬ failingHost.Arms v (sourceId "/p/src/a.ts")) →
      ¬ s₁.Pending (sourceId "/p/src/a.ts") ∧ ∀ log, failingHost.compiler.Logs log →
        ∃ asked, log (outcome (failingHost.writeBundle s₁)).2.program = log s₁.program ++ asked ∧
          ∀ p ∈ asked, p.normalize ≠ sourceId "/p/src/a.ts" := by
  obtain ⟨b, hb⟩ := Option.isSome_iff_exists.mp
    (show failingStarted.build.isSome = true by decide +kernel)
  have hfails : (outcome (failingHost.transform "/p/src/a.ts" "a" failingStarted)).1
      = .error (.compiler "no declarations") := by decide +kernel
  have hrun : outcome (failingHost.transform "/p/src/a.ts" "a" failingStarted)
      = (.error (.compiler "no declarations"), failingTransformed) := by
    rw [failingTransformed, ← hfails]
  exact ⟨b, hb, Host.failed_transform_lost hb hrun⟩

end Typings
