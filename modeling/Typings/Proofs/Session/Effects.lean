import Typings.Proofs.Outcome
import Typings.Proofs.Session.Steps
import Typings.Session

/-!
# `Effects` — what the steps of a session do to its flag and its world

Besides its program and what is recorded, a session holds a bench and a flag: whether it has started,
and whether a flush has been begun since the last change it took.  Most steps touch neither
(`SessionM.QuietAt`).  The law of each step is stated for failure as well as for success, since what a
step did before it failed stays done.

* `Session.flag`: whether a session has started and begun a flush.
* `SessionM.QuietAt`: a step that leaves flag and bench alone; `quiet_transform` and others.
* `start_cases`, `Invalidates`, `Flushes`: the steps that do not.
* `gather_spec`: the first half of a flush, which writes nothing.
-/

namespace Typings

variable {σ π α β : Type}

/-- Nothing before the session has started; then, whether a flush has been begun since the last change
    that was taken. -/
def Session.flag (s : Session σ π) : Option Bool := s.build.map (·.flushed)

theorem Session.flag_of_build {s : Session σ π} {b : Build} (h : s.build = some b) :
    s.flag = some b.flushed := by
  rw [flag, h]
  rfl

/-- A session with another world and another program. -/
def Session.drifted (s : Session σ π) (c : σ × π) : Session σ π :=
  { s with bench := { s.bench with world := c.1 }, program := c.2 }

/-- A session that was started has its build. -/
theorem outcome_started {s : Session σ π} {b : Build} (h : s.build = some b) :
    outcome (SessionM.started s) = (.ok b, s) := by
  rw [SessionM.started_eq h]
  rfl

/-- A session that was not started has an error instead of a build. -/
theorem outcome_started_none {s : Session σ π} (h : s.build = none) :
    outcome (SessionM.started s) = (.error .notStarted, s) := by
  obtain ⟨bench, program, version, build⟩ := s
  cases h
  rfl

/-! ## Steps that leave the flag and the bench alone -/

/-- From `s`, the step works with the program and with what is recorded only: it does not touch the
    bench, nor does it begin a flush or take a change. -/
def SessionM.QuietAt (s : Session σ π) (op : SessionM σ π α) : Prop :=
  (outcome (op s)).2.bench = s.bench ∧ (outcome (op s)).2.flag = s.flag

namespace SessionM.QuietAt

variable {s : Session σ π} {op : SessionM σ π α} {k : α → SessionM σ π β}

/-- To do nothing is quiet. -/
theorem pure (a : α) : QuietAt s (Pure.pure a : SessionM σ π α) := ⟨rfl, rfl⟩

/-- Two quiet steps, one after the other, are quiet. -/
theorem bind (h : QuietAt s op) (hk : ∀ a s', s'.flag = s.flag → QuietAt s' (k a)) :
    QuietAt s (op >>= k) := by
  refine outcome_bind_preserves (P := fun s' : Session σ π => s'.bench = s.bench ∧ s'.flag = s.flag) h
    fun a s' hs => ?_
  obtain ⟨hbench, hflag⟩ := hk a s' hs.2
  exact ⟨hbench.trans hs.1, hflag.trans hs.2⟩

theorem get_bind {k : Session σ π → SessionM σ π β} (hk : QuietAt s (k s)) :
    QuietAt s ((get : SessionM σ π (Session σ π)) >>= k) := hk

theorem started_bind {k : Build → SessionM σ π β}
    (hk : ∀ b, s.flag = some b.flushed → QuietAt s (k b)) :
    QuietAt s (SessionM.started >>= k) := by
  cases hb : s.build with
  | none =>
      rw [QuietAt, outcome_bind, outcome_started_none hb]
      exact ⟨rfl, rfl⟩
  | some b =>
      rw [QuietAt, outcome_bind, outcome_started hb]
      exact hk b (Session.flag_of_build hb)

/-- What a session works with is replaced by something with the same flag. -/
theorem setBuild {b : Build} (hb : s.flag = some b.flushed) : QuietAt s (SessionM.setBuild b) :=
  ⟨rfl, hb.symm⟩

theorem onProgram (op : σ → EStateM BuildError π α) : QuietAt s (SessionM.onProgram op) := by
  rw [QuietAt, SessionM.onProgram]
  cases op s.bench.world s.program <;> exact ⟨rfl, rfl⟩

end SessionM.QuietAt

namespace Host

open SessionM (QuietAt)

variable {h : Host σ π} {s : Session σ π}

/-- Recording what the compiler emits leaves the flag alone. -/
theorem quiet_emitted (b : Build) (path : Path) : QuietAt s (h.emitted b path) :=
  .bind (.onProgram _) fun _ _ _ => .get_bind (.pure _)

/-- Recording what a resolver makes leaves the flag alone. -/
theorem quiet_declarations (b : Build) (id : Path) (code : Text) :
    QuietAt s (h.declarations b id code) := by
  unfold declarations
  split
  · exact .bind (.onProgram _) fun _ _ _ => .pure _
  · refine .get_bind ?_
    split
    · exact quiet_emitted b _
    · exact .pure _

/-- A transformation leaves the flag alone. -/
theorem quiet_transform (path : Path) (code : Text) : QuietAt s (h.transform path code) := by
  refine .started_bind fun b hb => ?_
  dsimp only
  split
  · exact .pure _
  · -- The outputs are recorded in the build from before they were read, so the flag is the same.
    refine .bind (.setBuild hb) fun _ s₁ h₁ => ?_
    refine .bind (quiet_declarations _ _ _) fun outputs s₂ h₂ => .get_bind ?_
    exact .bind (.setBuild (by rw [h₂, h₁, hb]; rfl)) fun _ _ _ => .pure _

/-- Any number of transformations leave the flag alone. -/
theorem quiet_transformAll (fs : List SourceFile) : QuietAt s (h.transformAll fs) := by
  induction fs generalizing s with
  | nil => exact .pure _
  | cons f fs ih =>
      exact .bind (quiet_transform _ _) fun _ _ _ => .bind ih fun _ _ _ => .pure _

/-- What each source that is transformed preserves holds after all of them. -/
theorem transformAll_preserves {P : Session σ π → Prop}
    (hstep : ∀ s path code, P s → P (outcome (h.transform path code s)).2) (fs : List SourceFile) (hs : P s) :
    P (outcome (h.transformAll fs s)).2 := by
  induction fs generalizing s with
  | nil => exact hs
  | cons f fs ih =>
      exact outcome_bind_preserves (hstep s f.path f.text hs) fun _ _ h₁ =>
        outcome_bind_preserves (ih h₁) fun _ _ h₂ => h₂

/-- Transforming all sources leaves the flag alone. -/
theorem quiet_transformSources : QuietAt s h.transformSources :=
  .started_bind fun _ _ => .get_bind (quiet_transformAll _)

/-- Transforming one source leaves the flag alone. -/
theorem quiet_transformSource (path : Path) : QuietAt s (h.transformSource path) := by
  refine .get_bind ?_
  split
  · split
    · exact .pure _
    · exact quiet_transform _ _
  · exact .pure _

/-- Asking the compiler for a source leaves the flag alone. -/
theorem quiet_flushSource (f : SourceFile) : QuietAt s (h.flushSource f) := by
  refine .started_bind fun b hb => ?_
  dsimp only
  split
  · exact .pure _
  · -- Recording a copied declaration leaves the flag as it is.
    split
    all_goals
      split
      · exact .bind (quiet_emitted _ _) fun _ s₁ h₁ => .setBuild (by rw [h₁, hb]; rfl)
      · exact .setBuild hb

theorem quiet_flushSources (fs : List SourceFile) : QuietAt s (h.flushSources fs) := by
  induction fs generalizing s with
  | nil => exact .pure _
  | cons f fs ih => exact .bind (quiet_flushSource f) fun _ _ _ => ih

/-! ## Starting, and taking a change -/

/-- Work that leaves the world as it is, in front of more. -/
theorem outcome_work_bind {op : WorkM σ α} {k : α → SessionM σ π β} {w : σ}
    {P : Except BuildError β × Session σ π → Prop} (hw : s.bench.world = w)
    (hop : ∀ b, (outcome (op b)).2.world = b.world)
    (herror : ∀ e b, b.world = w → P (.error e, { s with bench := b }))
    (hok : ∀ a b, b.world = w → P (outcome (k a { s with bench := b }))) :
    P (outcome ((SessionM.work op >>= k) s)) := by
  have hworld := (hop s.bench).trans hw
  rw [outcome_bind, SessionM.work]
  cases hrun : op s.bench with
  | ok a b =>
      rw [hrun] at hworld
      exact hok a b hworld
  | error e b =>
      rw [hrun] at hworld
      exact herror e b hworld

theorem outcome_work_if_bind {c : Prop} {_ : Decidable c} {op : WorkM σ Unit}
    {k : Unit → SessionM σ π β} {w : σ} {P : Except BuildError β × Session σ π → Prop}
    (hw : s.bench.world = w) (hop : ∀ b, (outcome (op b)).2.world = b.world)
    (herror : ∀ e b, b.world = w → P (.error e, { s with bench := b }))
    (hok : ∀ b, b.world = w → P (outcome (k () { s with bench := b }))) :
    P (outcome ((if c then SessionM.work op >>= k else k ()) s)) := by
  split
  · exact outcome_work_bind hw hop herror fun _ => hok
  · exact hok s.bench hw

theorem world_ofExcept (r : Except BuildError α) (b : Workbench σ) :
    (outcome (WorkM.ofExcept r b)).2.world = b.world := by
  cases r <;> rfl

/-- Complaints are reported without touching any files. -/
theorem world_reportDiagnostics (ds : List Diagnostic) (b : Workbench σ) :
    (outcome (reportDiagnostics ds b)).2.world = b.world := by
  unfold reportDiagnostics
  split <;> rfl

/-- The flag after a start that ends in some way. -/
def startFlag (end_ : Except BuildError Unit) (f : Option Bool) : Option Bool :=
  match end_ with
  | .ok _ => f.or (some false)
  | .error _ => f

/-- A session that was started is not started again. -/
theorem start_of_started {b : Build} (hb : s.build = some b) : h.start s = .ok () s := by
  have hstarted : s.build.isSome = true := by rw [hb]; rfl
  rw [start, SessionM.get_bind, if_pos hstarted]
  rfl

/-- What starting a new session does: only the bench changes, unless all goes well and the build is put
    down at the end. -/
theorem start_cases (h : Host σ π) {s : Session σ π} (hb : s.build = none) :
    ∃ bench, bench.world = s.bench.world ∧
      ((∃ e, outcome (h.start s) = (.error e, { s with bench })) ∨
        ∃ b, b.pending = h.pending s.program b.filter ∧ b.flushed = false ∧ b.outputs = {} ∧
          b.publicRoot = h.publicRoot s.program ∧
          outcome (h.start s) = (.ok (), { s with bench, build := some b })) := by
  let P (r : Except BuildError Unit × Session σ π) : Prop :=
    ∃ bench, bench.world = s.bench.world ∧ ((∃ e, r = (.error e, { s with bench })) ∨
      ∃ b, b.pending = h.pending s.program b.filter ∧ b.flushed = false ∧ b.outputs = {} ∧
        b.publicRoot = h.publicRoot s.program ∧ r = (.ok (), { s with bench, build := some b }))
  show P (outcome (h.start s))
  have hnew : ¬ s.build.isSome = true := by rw [hb]; exact Bool.false_ne_true
  have herror (e : BuildError) (bench : Workbench σ) (hw : bench.world = s.bench.world) :
      P (.error e, { s with bench }) := ⟨bench, hw, .inl ⟨e, rfl⟩⟩
  rw [start, SessionM.get_bind, if_neg hnew, SessionM.get_bind]
  refine outcome_work_if_bind rfl (fun _ => rfl) herror fun b₁ hb₁ => ?_
  refine outcome_work_bind hb₁ (world_ofExcept _) herror fun filter b₂ hb₂ => ?_
  refine outcome_work_bind hb₂ (fun _ => rfl) herror fun _ b₃ hb₃ => ?_
  refine outcome_work_bind hb₃ (world_reportDiagnostics _) herror fun _ b₄ hb₄ => ?_
  refine outcome_work_bind hb₄ (world_ofExcept _) herror fun _ b₅ hb₅ => ?_
  refine ⟨{ b₅ with events := b₅.events ++ [.phase "create program"] }, hb₅, .inr ⟨_, ?_, ?_, ?_, ?_, rfl⟩⟩
  all_goals rfl

/-- A session starts without a flush, and one that has started stays as it is. -/
theorem start_spec (h : Host σ π) (s : Session σ π) :
    (outcome (h.start s)).2.bench.world = s.bench.world ∧
      (outcome (h.start s)).2.flag = startFlag (outcome (h.start s)).1 s.flag := by
  cases hb : s.build with
  | some b =>
      rw [start_of_started hb]
      refine ⟨rfl, ?_⟩
      rw [Session.flag_of_build hb]
      exact Session.flag_of_build hb
  | none =>
      obtain ⟨bench, hw, ⟨e, heq⟩ | ⟨b, -, hflushed, -, -, heq⟩⟩ := h.start_cases hb
      · rw [heq]
        exact ⟨hw, rfl⟩
      · rw [heq]
        refine ⟨hw, ?_⟩
        rw [Session.flag_of_build rfl, hflushed, Session.flag, hb]
        rfl

/-- A change clears the flag just if it is one that counts. -/
theorem flushed_afterChange (b : Build) (id : Path) (refreshed gone : Bool) :
    (afterChange b id refreshed gone).1.flushed
      = if (afterChange b id refreshed gone).2 then false else b.flushed := by
  unfold afterChange
  split
  · dsimp only
    split <;> rfl
  · split <;> rfl

/-- A refresh is the compiler's, on the files and the program of the session. -/
theorem outcome_refresh (c : Compiler σ π) (path : Path) (s : Session σ π) :
    outcome (SessionM.refresh c path s)
      = ((outcome (c.refresh path (s.bench.world, s.program))).1,
          Session.drifted s (outcome (c.refresh path (s.bench.world, s.program))).2) := by
  rw [SessionM.refresh]
  cases c.refresh path (s.bench.world, s.program) <;> rfl

/-- A source that the session does not take is left alone. -/
theorem outcome_invalidate_left {path : Path} (hh : h.handles s path = false) :
    outcome (h.invalidate path s) = (.ok false, s) := by
  rw [invalidate, SessionM.get_bind, hh]
  rfl

/-- A refresh that fails ends the invalidation with its error. -/
theorem outcome_invalidate_error {path : Path} {e : BuildError} {c : σ × π}
    (hh : h.handles s path = true)
    (hc : outcome (h.compiler.refresh (sourceId path) (s.bench.world, s.program)) = (.error e, c)) :
    outcome (h.invalidate path s) = (.error e, s.drifted c) := by
  have hrefresh := outcome_refresh h.compiler (sourceId path) s
  rw [hc] at hrefresh
  rw [invalidate, SessionM.get_bind, hh, if_neg (by decide), outcome_bind_error hrefresh]

/-- A source that has been read again is there or gone, and the session works on as `afterChange`
    says. -/
theorem outcome_invalidate {path : Path} {b : Build} {refreshed : Bool} {c : σ × π}
    (hb : s.build = some b) (hh : h.handles s path = true)
    (hc : outcome (h.compiler.refresh (sourceId path) (s.bench.world, s.program)) = (.ok refreshed, c)) :
    ∃ version, outcome (h.invalidate path s)
      = (.ok (afterChange b (sourceId path) refreshed (h.compiler.source? c.2 (sourceId path)).isNone).2,
        { s.drifted c with
          build := some
            (afterChange b (sourceId path) refreshed (h.compiler.source? c.2 (sourceId path)).isNone).1
          version := version }) := by
  have hrefresh := outcome_refresh h.compiler (sourceId path) s
  rw [hc] at hrefresh
  rw [invalidate, SessionM.get_bind, hh, if_neg (by decide), outcome_bind_ok hrefresh, SessionM.get_bind,
    outcome_bind_ok (outcome_started (s := s.drifted c) hb)]
  cases hafter : afterChange b (sourceId path) refreshed
    (h.compiler.source? c.2 (sourceId path)).isNone with
  | mk b' changed =>
      refine ⟨if changed then s.version + 1 else s.version, ?_⟩
      simp only [Session.drifted, hafter]
      cases changed <;> rfl

/-- Only a session that was started takes any source. -/
theorem exists_build_of_handles {path : Path} (hh : h.handles s path = true) :
    ∃ b, s.build = some b := by
  cases hb : s.build with
  | some b => exact ⟨b, rfl⟩
  | none =>
      rw [handles, hb] at hh
      exact absurd hh Bool.false_ne_true

/-- What a call of `invalidate` does: a source that is not handled is left alone, any other is read again; if that
    succeeds, the session works on as `afterChange` says. -/
inductive Invalidates (h : Host σ π) (path : Path) (s : Session σ π) :
    Except BuildError Bool → Session σ π → Prop where
  | left (hh : h.handles s path = false) : Invalidates h path s (.ok false) s
  | failed {b : Build} {e : BuildError} {c : σ × π} (hb : s.build = some b) (hh : h.handles s path = true)
      (hc : outcome (h.compiler.refresh (sourceId path) (s.bench.world, s.program)) = (.error e, c)) :
      Invalidates h path s (.error e) (s.drifted c)
  | read {b : Build} {refreshed : Bool} {c : σ × π} {version : Nat} (hb : s.build = some b)
      (hh : h.handles s path = true)
      (hc : outcome (h.compiler.refresh (sourceId path) (s.bench.world, s.program)) = (.ok refreshed, c)) :
      Invalidates h path s
        (.ok (afterChange b (sourceId path) refreshed (h.compiler.source? c.2 (sourceId path)).isNone).2)
        { s.drifted c with
          build := some
            (afterChange b (sourceId path) refreshed (h.compiler.source? c.2 (sourceId path)).isNone).1
          version := version }

/-- **Every invalidation** ends in one of the ways that are told apart. -/
theorem exists_invalidates (h : Host σ π) (path : Path) (s : Session σ π) :
    ∃ r s', outcome (h.invalidate path s) = (r, s') ∧ h.Invalidates path s r s' := by
  cases hh : h.handles s path with
  | false => exact ⟨_, _, outcome_invalidate_left hh, .left hh⟩
  | true =>
      obtain ⟨b, hb⟩ := exists_build_of_handles hh
      cases hc : outcome (h.compiler.refresh (sourceId path) (s.bench.world, s.program)) with
      | mk r c =>
          cases r with
          | error e => exact ⟨_, _, outcome_invalidate_error hh hc, .failed hb hh hc⟩
          | ok refreshed =>
              obtain ⟨version, hout⟩ := outcome_invalidate hb hh hc
              exact ⟨_, _, hout, .read hb hh hc⟩

/-- A change that is taken makes the next flush due; any other call of `invalidate` leaves the flag as
    it is. -/
theorem flag_invalidate (h : Host σ π) (path : Path) (s : Session σ π) :
    (outcome (h.invalidate path s)).2.flag =
      if (outcome (h.invalidate path s)).1 = .ok true then s.flag.map fun _ => false else s.flag := by
  obtain ⟨r, s', hout, hcase⟩ := h.exists_invalidates path s
  rw [hout]
  cases hcase with
  | left => rfl
  | failed => rfl
  | read hb =>
      rw [Session.flag_of_build hb, Session.flag_of_build rfl, flushed_afterChange]
      generalize (afterChange _ _ _ _).2 = changed
      cases changed <;> rfl

/-- Reading a source again is all that `invalidate` does to the world. -/
theorem world_invalidate {ρ : Type} {f : σ → ρ} {h : Host σ π}
    (hf : ∀ path c, f (outcome (h.compiler.refresh path c)).2.1 = f c.1) (path : Path)
    (s : Session σ π) : f (outcome (h.invalidate path s)).2.bench.world = f s.bench.world := by
  have hread {r : Except BuildError Bool} {c : σ × π}
      (hc : outcome (h.compiler.refresh (sourceId path) (s.bench.world, s.program)) = (r, c)) :
      f c.1 = f s.bench.world := by
    have hsame := hf (sourceId path) (s.bench.world, s.program)
    rw [hc] at hsame
    exact hsame
  obtain ⟨r, s', hout, hcase⟩ := h.exists_invalidates path s
  rw [hout]
  cases hcase with
  | left => rfl
  | failed _ _ hc => exact hread hc
  | read _ _ hc => exact hread hc

/-! ## A flush -/

/-- The first half of a flush, in which the outputs that are still missing are recorded. -/
def gather (h : Host σ π) (b : Build) : SessionM σ π (Session σ π × Build) := do
  SessionM.setBuild { b with flushed := true }
  SessionM.work (WorkM.report .started)
  h.flushSources (h.compiler.sources (← get).program)
  SessionM.work (WorkM.phase "emit output patch")
  let s ← get
  let b ← SessionM.started
  return (s, b)

/-- What a call of `writeBundle` does. -/
inductive Flushes (h : Host σ π) (s : Session σ π) :
    Except BuildError (Option Report) → Session σ π → Prop where
  | notStarted (hb : s.build = none) : Flushes h s (.error .notStarted) s
  | skipped {b : Build} (hb : s.build = some b) (hf : b.flushed = true) : Flushes h s (.ok none) s
  | failed {b : Build} {e : BuildError} {s' : Session σ π} (hb : s.build = some b)
      (hf : b.flushed = false) (hg : outcome (h.gather b s) = (.error e, s')) :
      Flushes h s (.error e) s'
  | written {b b' : Build} {s' : Session σ π} {r : Except BuildError Report} {bench : Workbench σ}
      (hb : s.build = some b) (hf : b.flushed = false)
      (hg : outcome (h.gather b s) = (.ok (s', b'), s'))
      (hw : outcome (h.writeRecorded s'.program b' s'.version s'.bench) = (r, bench)) :
      Flushes h s (r.map some) { s' with bench }

theorem outcome_work (op : WorkM σ α) (s : Session σ π) :
    outcome (SessionM.work op s)
      = ((outcome (op s.bench)).1, { s with bench := (outcome (op s.bench)).2 }) := by
  rw [SessionM.work]
  cases op s.bench <;> rfl

/-- Recording what is missing leaves the world as it is; the flush counts as begun. -/
theorem gather_spec (h : Host σ π) (b : Build) (s : Session σ π) :
    (outcome (h.gather b s)).2.bench.world = s.bench.world ∧
      (outcome (h.gather b s)).2.flag = some true ∧
      ∀ s' b', (outcome (h.gather b s)).1 = .ok (s', b') →
        (outcome (h.gather b s)).2 = s' ∧ s'.build = some b' := by
  let s₁ : Session σ π := { s with
    bench := { s.bench with events := s.bench.events ++ [.started] }
    build := some { b with flushed := true } }
  let gathered : SessionM σ π (Session σ π × Build) := do
    h.flushSources (h.compiler.sources s₁.program)
    SessionM.work (WorkM.phase "emit output patch")
    let s ← get
    let b ← SessionM.started
    return (s, b)
  show (outcome (gathered s₁)).2.bench.world = s₁.bench.world ∧ (outcome (gathered s₁)).2.flag = some true
    ∧ ∀ s' b', (outcome (gathered s₁)).1 = .ok (s', b') →
      (outcome (gathered s₁)).2 = s' ∧ s'.build = some b'
  obtain ⟨hbench, hflag⟩ := h.quiet_flushSources (s := s₁) (h.compiler.sources s₁.program)
  -- Only recording the sources can fail; what follows it is an event and two reads.
  cases hrun : outcome (h.flushSources (h.compiler.sources s₁.program) s₁) with
  | mk r s₂ =>
      rw [hrun] at hbench hflag
      cases r with
      | error e =>
          rw [show outcome (gathered s₁) = (.error e, s₂) from outcome_bind_error hrun]
          exact ⟨congrArg (·.world) hbench, hflag, fun s' b' he => nomatch he⟩
      | ok _ =>
          let s₃ : Session σ π := { s₂ with
            bench := { s₂.bench with events := s₂.bench.events ++ [.phase "emit output patch"] } }
          obtain ⟨b₂, hb₂⟩ : ∃ b₂, s₃.build = some b₂ :=
            Option.map_eq_some_iff.mp hflag |>.imp fun _ h => h.1
          have hend : outcome (gathered s₁) = (.ok (s₃, b₂), s₃) := by
            show outcome ((h.flushSources (h.compiler.sources s₁.program) >>= _) s₁) = _
            rw [outcome_bind_ok hrun]
            show outcome ((SessionM.started >>= fun b => Pure.pure (s₃, b)) s₃) = _
            rw [outcome_bind_ok (outcome_started hb₂)]
            rfl
          rw [hend]
          refine ⟨congrArg (·.world) hbench, hflag, ?_⟩
          rintro s' b' ⟨⟩
          exact ⟨rfl, hb₂⟩

/-- **Every flush** ends in one of the ways that are told apart. -/
theorem flushes (h : Host σ π) (s : Session σ π) :
    h.Flushes s (outcome (h.writeBundle s)).1 (outcome (h.writeBundle s)).2 := by
  cases hb : s.build with
  | none =>
      rw [writeBundle, outcome_bind_error (outcome_started_none hb)]
      exact .notStarted hb
  | some b =>
      cases hf : b.flushed with
      | true =>
          rw [writeBundle, outcome_bind_ok (outcome_started hb), hf]
          exact .skipped hb hf
      | false =>
          have hsplit : outcome (h.writeBundle s) = outcome ((h.gather b >>= fun (s, b) => do
              return some (← SessionM.work (h.writeRecorded s.program b s.version))) s) := by
            rw [writeBundle, outcome_bind_ok (outcome_started hb), hf, if_neg Bool.false_ne_true]
            simp only [gather, bind_assoc, pure_bind]
          rw [hsplit]
          obtain ⟨-, -, hend⟩ := h.gather_spec b s
          cases hrun : outcome (h.gather b s) with
          | mk r s' =>
              cases r with
              | error e =>
                  rw [outcome_bind_error hrun]
                  exact .failed hb hf hrun
              | ok x =>
                  obtain ⟨s₁, b'⟩ := x
                  rw [hrun] at hend
                  have hs : s' = s₁ := (hend _ _ rfl).1
                  subst hs
                  rw [outcome_bind_ok hrun]
                  dsimp only
                  rw [outcome_bind, outcome_work]
                  cases hwrite : outcome (h.writeRecorded s'.program b' s'.version s'.bench) with
                  | mk r bench =>
                      have hcase := Flushes.written hb hf hrun hwrite
                      cases r with
                      | ok report => exact hcase
                      | error e => exact hcase

/-- A flush counts as begun whatever comes of it. -/
theorem Flushes.flag {h : Host σ π} {s s' : Session σ π} {r : Except BuildError (Option Report)}
    (hf : h.Flushes s r s') : s'.flag = s.flag.map fun _ => true := by
  cases hf with
  | notStarted hb =>
      rw [Session.flag, hb]
      rfl
  | skipped hb hf =>
      rw [Session.flag_of_build hb, hf]
      rfl
  | @failed b e s' hb hf hg =>
      have hflag := (h.gather_spec b s).2.1
      rw [hg] at hflag
      rw [Session.flag_of_build hb]
      exact hflag
  | @written b b' s' r bench hb hf hg hw =>
      have hflag := (h.gather_spec b s).2.1
      rw [hg] at hflag
      rw [Session.flag_of_build hb]
      exact hflag

end Host

end Typings
