import Typings.Proofs.Session.Emissions
import Typings.Proofs.Session.History

/-!
# `Pending` — no source is lost, and none is made twice

A source is pending from the moment it is armed, by the start of the session or by a change that finds
it, until it is settled: transformed, taken by a flush, or found gone.  Each call of a session arms some
places and settles others, and does nothing else to what is pending (`pending_call`), so what is pending
can be read off the calls alone (`Visits.pending_iff`).  A flush asks for exactly these sources
(`Visits.flush_exact`).

* `Host.Declares`, `Host.TransformEnds`: how declarations are made, and how a source is transformed.
* `Host.Infallible`: no resolver fails.
* `Visit`, `Host.Visits`: the calls of a session with the sessions they were made on.
* `Host.Arms`, `Host.Settles`, `Host.Armed`: what a call does to a place, and what all of them come to.
* `Visits.pending_iff`, `Visits.flush_exact`: what is pending, and what a flush makes of it.
-/

namespace Typings

variable {σ π α β : Type}

/-- The id of a source is taken once: it is its own id. -/
theorem sourceId_sourceId (path : Path) : sourceId (sourceId path) = sourceId path := by
  refine sourceId_eq (normalize_sourceId path) fun hmark => ?_
  -- Folding a path brings no mark into it.
  rcases Path.mem_text_normalize hmark with hmark | hmark | hmark
  · exact absurd (List.mem_takeWhile_imp hmark) (by decide)
  · exact absurd hmark (by decide)
  · exact absurd hmark (by decide)

/-! ## How a source is transformed -/

namespace Host

variable {h : Host σ π} {s : Session σ π} {b : Build}

/-- How declarations are made, and the program that is left: by the resolver of the source, which may fail, by the
    compiler, or not at all. -/
inductive Declares (h : Host σ π) (w : σ) (p₀ : π) (root id : Path) (code : Text) :
    Except BuildError (List OutputFile) → π → Prop where
  | resolved {r : Resolver σ π} {made : List OutputFile} {p : π} (hd : h.registry.dispatch? id = some r)
      (hr : r.outputs h.compiler w ⟨id, code, root, h.options.outDir⟩ p₀ = .ok made p) :
      Declares h w p₀ root id code (.ok (made.map fun o => { o with path := h.resolvedKey root o.path })) p
  | failed {r : Resolver σ π} {e : BuildError} {p : π} (hd : h.registry.dispatch? id = some r)
      (hr : r.outputs h.compiler w ⟨id, code, root, h.options.outDir⟩ p₀ = .error e p) :
      Declares h w p₀ root id code (.error e) p
  | emitted {f : SourceFile} (hd : h.registry.dispatch? id = none) (hf : h.compiler.source? p₀ id = some f) :
      Declares h w p₀ root id code (.ok ((h.compiler.request w p₀ f.path).outputs root))
        (h.compiler.emit w f.path p₀).2
  | absent (hd : h.registry.dispatch? id = none) (hf : h.compiler.source? p₀ id = none) :
      Declares h w p₀ root id code (.ok []) p₀

/-- What a declaration pass does is one of the cases of `Declares`, whatever the compiler answers. -/
theorem exists_declares (h : Host σ π) (b : Build) (id : Path) (code : Text) (s : Session σ π) :
    ∃ r p, outcome (h.declarations b id code s) = (r, { s with program := p }) ∧
      h.Declares s.bench.world s.program b.publicRoot id code r p := by
  unfold declarations
  cases hd : h.registry.dispatch? id with
  | some r =>
      dsimp only [resolved]
      rw [outcome_bind, SessionM.onProgram]
      cases hr : r.outputs h.compiler s.bench.world ⟨id, code, b.publicRoot, h.options.outDir⟩ s.program with
      | ok made p => exact ⟨_, p, rfl, .resolved hd hr⟩
      | error e p => exact ⟨_, p, rfl, .failed hd hr⟩
  | none =>
      dsimp only
      rw [SessionM.get_bind]
      cases hf : h.compiler.source? s.program id with
      | some f => exact ⟨_, _, congrArg outcome (emitted_ok b f.path s), .emitted hd hf⟩
      | none => exact ⟨_, _, rfl, .absent hd hf⟩

/-- Once a build runs, a path is handled if the filter takes it and its language is understood. -/
theorem handles_of_build (hb : s.build = some b) (path : Path) :
    h.handles s path = (b.filter.accepts (sourceId path) && h.understands (sourceId path)) := by
  rw [handles, hb]

/-- A path that is not handled is left alone, with `false` as the answer. -/
theorem transform_of_not_handles (hb : s.build = some b) {path : Path}
    (hh : h.handles s path = false) (code : Text) : h.transform path code s = .ok false s := by
  rw [handles_of_build hb] at hh
  rw [transform, SessionM.bind_ok (SessionM.started_eq hb), hh]
  rfl

/-- How the transformation of a source ends in a started session, and the session that it leaves: a source that is
    not handled is left alone; any other is no longer pending, and what is made of it is recorded with what lies
    beside it, unless its resolver fails. -/
inductive TransformEnds (h : Host σ π) (path : Path) (code : Text) (s : Session σ π) (b : Build) :
    Except BuildError Bool → Session σ π → Prop where
  | left (hh : h.handles s path = false) : TransformEnds h path code s b (.ok false) s
  | made {outputs : List OutputFile} {p : π} (hh : h.handles s path = true)
      (hd : h.Declares s.bench.world s.program b.publicRoot (sourceId path) code (.ok outputs) p) :
      TransformEnds h path code s b (.ok true) { s with
        program := p
        build := some (record (sourceId path) (outputs ++ h.sidecarOutputs p b (sourceId path))
          { b with pending := b.pending.erase (sourceId path) }) }
  | failed {e : BuildError} {p : π} (hh : h.handles s path = true)
      (hd : h.Declares s.bench.world s.program b.publicRoot (sourceId path) code (.error e) p) :
      TransformEnds h path code s b (.error e) { s with
        program := p
        build := some { b with pending := b.pending.erase (sourceId path) } }

/-- Every transform ends in one of the ways of `TransformEnds`. -/
theorem exists_transformEnds (hb : s.build = some b) (path : Path) (code : Text) :
    ∃ r s', outcome (h.transform path code s) = (r, s') ∧ h.TransformEnds path code s b r s' := by
  cases hh : h.handles s path with
  | false => exact ⟨_, _, congrArg outcome (transform_of_not_handles hb hh code), .left hh⟩
  | true =>
      have htaken := hh
      rw [handles_of_build hb] at htaken
      let b₁ : Build := { b with pending := b.pending.erase (sourceId path) }
      obtain ⟨r, p, hdecl, hd⟩ := h.exists_declares b₁ (sourceId path) code { s with build := some b₁ }
      have hrun : outcome (h.transform path code s)
          = outcome ((h.declarations b₁ (sourceId path) code >>= fun outputs => do
              let beside := h.sidecarOutputs (← get).program b₁ (sourceId path)
              SessionM.setBuild (record (sourceId path) (outputs ++ beside) b₁)
              return true : SessionM σ π Bool) { s with build := some b₁ }) := by
        rw [transform, SessionM.bind_ok (SessionM.started_eq hb), htaken]
        rfl
      cases r with
      | ok outputs => exact ⟨_, _, hrun.trans (outcome_bind_ok hdecl), .made hh hd⟩
      | error e => exact ⟨_, _, hrun.trans (outcome_bind_error hdecl), .failed hh hd⟩

/-- A transform in front of the start is an error and changes nothing. -/
theorem outcome_transform_none (hb : s.build = none) (path : Path) (code : Text) :
    outcome (h.transform path code s) = (.error .notStarted, s) := by
  rw [transform, outcome_bind_error (outcome_started_none hb)]

/-- A source that is called for by its path is transformed with the text that the program has; a path without one,
    and that of a declaration, is left alone. -/
theorem transformSource_cases (h : Host σ π) (path : Path) (s : Session σ π) :
    h.transformSource path s = .ok false s ∨
      ∃ f, h.compiler.source? s.program (sourceId path) = some f ∧ f.isDeclaration = false ∧
        h.transformSource path s = h.transform (sourceId path) f.text s := by
  rw [transformSource, SessionM.get_bind]
  cases h.compiler.source? s.program (sourceId path) with
  | none => exact .inl rfl
  | some f =>
      cases hd : f.isDeclaration with
      | true =>
          simp only [hd, if_true]
          exact .inl rfl
      | false =>
          simp only [hd, Bool.false_eq_true, if_false]
          exact .inr ⟨f, rfl, hd, rfl⟩

/-! ## Transforming without failure -/

/-- No resolver of the host fails. -/
def Infallible (h : Host σ π) : Prop :=
  ∀ r ∈ h.registry.resolvers, ∀ w source p, ∃ outputs p',
    r.outputs h.compiler w source p = .ok outputs p'

/-- A source that the session takes is no longer pending. -/
theorem transform_of_handles (hi : h.Infallible) (hb : s.build = some b) {path : Path}
    (hh : h.handles s path = true) (code : Text) :
    ∃ p outputs, h.transform path code s = .ok true { s with
      program := p
      build := some { b with outputs, pending := b.pending.erase (sourceId path) } } := by
  obtain ⟨r, s', hrun, hends⟩ := h.exists_transformEnds hb path code
  cases hends with
  | left hleft => exact nomatch hleft.symm.trans hh
  | made => exact ⟨_, _, eq_ok_of_outcome hrun⟩
  | failed _ hd =>
      cases hd with
      | failed hresolver hr =>
          obtain ⟨outputs, p, hok⟩ := hi _ (List.mem_of_find?_eq_some hresolver) s.bench.world _ s.program
          exact nomatch hok.symm.trans hr

/-- Sources that are transformed one after the other are no longer pending, those that the session
    takes. -/
theorem transformAll_settles (hi : h.Infallible) (hb : s.build = some b) (fs : List SourceFile) :
    ∃ n s' b', h.transformAll fs s = .ok n s' ∧ s'.build = some b' ∧ b'.filter = b.filter ∧
      ∀ q, b'.pending.contains q = true ↔ b.pending.contains q = true ∧
        ¬ ∃ f ∈ fs, h.handles s f.path = true ∧ (sourceId f.path).same q = true := by
  induction fs generalizing s b with
  | nil => exact ⟨0, s, b, rfl, hb, rfl, by simp⟩
  | cons f fs ih =>
      -- The first source takes the session to one with the same filter, which takes the same sources.
      obtain ⟨taken, s₁, b₁, hs₁, hb₁, hfilter₁, hpending₁⟩ : ∃ taken s₁ b₁,
          h.transform f.path f.text s = .ok taken s₁ ∧ s₁.build = some b₁ ∧ b₁.filter = b.filter ∧
            ∀ q, b₁.pending.contains q = true ↔ b.pending.contains q = true ∧
              ¬ (h.handles s f.path = true ∧ (sourceId f.path).same q = true) := by
        cases hh : h.handles s f.path with
        | false =>
            exact ⟨false, s, b, transform_of_not_handles hb hh _, hb, rfl, by simp⟩
        | true =>
            obtain ⟨p, outputs, hs⟩ := transform_of_handles hi hb hh f.text
            refine ⟨true, _, _, hs, rfl, rfl, fun q => ?_⟩
            rw [PathMap.contains_erase]
            cases (sourceId f.path).same q <;> simp
      have hsame (path : Path) : h.handles s₁ path = h.handles s path := by
        rw [handles_of_build hb₁, handles_of_build hb, hfilter₁]
      obtain ⟨n, s₂, b₂, hs₂, hb₂, hfilter₂, hpending₂⟩ := ih hb₁
      refine ⟨if taken then n + 1 else n, s₂, b₂, ?_, hb₂, hfilter₂.trans hfilter₁, fun q => ?_⟩
      · rw [transformAll, SessionM.bind_ok hs₁, SessionM.bind_ok hs₂]
        rfl
      · rw [hpending₂, hpending₁]
        simp only [hsame, List.mem_cons, exists_eq_or_imp, not_or, and_assoc]

/-! ## The calls of a session -/

end Host

/-- A call with the session it was made on. -/
structure Visit (σ π : Type) where
  call : Call
  session : Session σ π

/-- The place is pending in the session. -/
def Session.Pending (s : Session σ π) (q : Path) : Prop :=
  ∃ b, s.build = some b ∧ b.pending.contains q = true

/-- Once a build runs, the pending sources are those of its record. -/
theorem Session.pending_of_build {s : Session σ π} {b : Build} (hb : s.build = some b) {q : Path} :
    s.Pending q ↔ b.pending.contains q = true := by
  constructor
  · rintro ⟨b', hb', hq⟩
    rw [Option.some.inj (hb.symm.trans hb')]
    exact hq
  · exact fun hq => ⟨b, hb, hq⟩

/-- Nothing is pending in front of the start. -/
theorem Session.not_pending_of_new {s : Session σ π} (hb : s.build = none) (q : Path) : ¬ s.Pending q := by
  rintro ⟨b, hb', -⟩
  exact absurd (hb.symm.trans hb') nofun

namespace Host

variable {h : Host σ π} {s : Session σ π} {b : Build}

/-- The session after a visit. -/
def leave (h : Host σ π) (v : Visit σ π) : Session σ π := (outcome (h.call v.call v.session)).2

/-- A visit arms a place: the session starts, and the place is one of an entry, or of a source of its
    own that the filter takes; or a change is taken of a source that is there. -/
def Arms (h : Host σ π) : Visit σ π → Path → Prop
  | ⟨.start, s⟩, q =>
    s.build = none ∧ ∃ b, (outcome (h.start s)).2.build = some b ∧
      ((∃ e ∈ h.options.entries, e.source.normalize = q) ∨
        ∃ f ∈ h.compiler.sources s.program, h.compiler.isExternal s.program f = false ∧
          b.filter.accepts q = true ∧ f.path.normalize = q)
  | ⟨.invalidate path, s⟩, q =>
    sourceId path = q ∧ (outcome (h.invalidate path s)).1 = .ok true ∧
      (h.compiler.source? (outcome (h.invalidate path s)).2.program q).isSome = true
  | _, _ => False

/-- A visit settles a place: a source there is transformed, by itself or with all others, or found gone,
    or a flush that is not skipped comes by it. -/
def Settles (h : Host σ π) : Visit σ π → Path → Prop
  | ⟨.start, _⟩, _ => False
  | ⟨.transform path code, s⟩, q => sourceId path = q ∧ (outcome (h.transform path code s)).1 = .ok true
  | ⟨.transformSource path, s⟩, q => sourceId path = q ∧ (outcome (h.transformSource path s)).1 = .ok true
  | ⟨.transformSources, s⟩, q =>
    ∃ b, s.build = some b ∧ ∃ f ∈ h.loadable s.program b, h.handles s f.path = true ∧ sourceId f.path = q
  | ⟨.invalidate path, s⟩, q =>
    sourceId path = q ∧ h.handles s path = true ∧ (∃ taken, (outcome (h.invalidate path s)).1 = .ok taken) ∧
      h.compiler.source? (outcome (h.invalidate path s)).2.program q = none
  | ⟨.writeBundle, s⟩, q =>
    ∃ b, s.build = some b ∧ b.flushed = false ∧ b.filter.accepts q = true ∧
      ∃ f ∈ h.compiler.sources s.program, f.path.normalize = q

/-- A change takes a source that is gone off the record and puts one that was read again on it. -/
theorem contains_afterChange (b : Build) (id q : Path) (refreshed gone : Bool) :
    (afterChange b id refreshed gone).1.pending.contains q
      = if gone then !id.same q && b.pending.contains q
        else refreshed && id.same q || b.pending.contains q := by
  cases gone with
  | true =>
      rw [if_pos rfl, ← PathMap.contains_erase, afterChange, if_pos rfl]
      dsimp only
      split <;> rfl
  | false =>
      rw [if_neg Bool.false_ne_true, afterChange, if_neg Bool.false_ne_true]
      cases refreshed with
      | true => exact PathMap.contains_insert b.pending id q ()
      | false => rfl

/-- A source that still stands is reported as changed when its text is. -/
theorem taken_afterChange (b : Build) (id : Path) (refreshed : Bool) :
    (afterChange b id refreshed false).2 = refreshed := by
  cases refreshed <;> rfl

/-- A bundle that has been flushed is not flushed again. -/
theorem writeBundle_of_flushed (hb : s.build = some b) (hf : b.flushed = true) :
    outcome (h.writeBundle s) = (.ok none, s) := by
  rw [writeBundle, outcome_bind_ok (outcome_started hb), hf]
  rfl

section

variable {q : Path} (hq : q.normalize = q)

include hq

/-- Of two names for a place, one of them plain, the places are the same when the names are. -/
theorem same_iff_eq {p : Path} (hp : p.normalize = p) : p.same q = true ↔ p = q := by
  constructor
  · exact Path.eq_of_same hp hq
  · rintro rfl
    exact Path.same_self p

/-- A start arms the entries and the sources of the program that the filter takes. -/
theorem contains_pending (p : π) (filter : SourceFilter) :
    (h.pending p filter).contains q = true ↔
      (∃ e ∈ h.options.entries, e.source.normalize = q) ∨
        ∃ f ∈ h.compiler.sources p, h.compiler.isExternal p f = false ∧ filter.accepts q = true ∧
          f.path.normalize = q := by
  rw [pending, PathSet.ofPaths, PathMap.contains_ofList]
  simp only [List.any_eq_true, List.mem_map, List.mem_append, List.mem_filter, Bool.not_eq_true']
  constructor
  · rintro ⟨_, ⟨place, hplace, rfl⟩, hs⟩
    rcases hplace with ⟨e, he, rfl⟩ | ⟨⟨f, ⟨hf, hext⟩, rfl⟩, haccept⟩
    · exact .inl ⟨e, he, (same_iff_eq hq (Path.normalize_normalize _)).mp hs⟩
    · obtain rfl := (same_iff_eq hq (Path.normalize_normalize _)).mp hs
      exact .inr ⟨f, hf, hext, haccept, rfl⟩
  · rintro (⟨e, he, rfl⟩ | ⟨f, hf, hext, haccept, rfl⟩)
    · exact ⟨_, ⟨_, .inl ⟨e, he, rfl⟩, rfl⟩, Path.same_self _⟩
    · exact ⟨_, ⟨_, .inr ⟨⟨f, ⟨hf, hext⟩, rfl⟩, haccept⟩, rfl⟩, Path.same_self _⟩

/-- A start arms what it arms, and what was pending stays unless the start settles it. -/
theorem pending_start (s : Session σ π) :
    (h.leave ⟨.start, s⟩).Pending q ↔
      h.Arms ⟨.start, s⟩ q ∨ s.Pending q ∧ ¬ h.Settles ⟨.start, s⟩ q := by
  show (outcome (h.start s)).2.Pending q ↔ _
  cases hb : s.build with
  | some b =>
      rw [start_of_started hb]
      simp [Arms, Settles, hb, outcome]
  | none =>
      have hnone : ¬ s.Pending q := Session.not_pending_of_new hb q
      obtain ⟨bench, -, ⟨e, heq⟩ | ⟨b, hpending, -, -, -, heq⟩⟩ := h.start_cases hb
      · rw [heq]
        constructor
        · exact fun hp => absurd hp (Session.not_pending_of_new hb q)
        · rintro (⟨-, b, hb', -⟩ | ⟨hp, -⟩)
          · rw [heq] at hb'
            exact absurd (hb.symm.trans hb') nofun
          · exact absurd hp hnone
      · rw [heq, Session.pending_of_build rfl, hpending, contains_pending hq]
        simp [Arms, heq, hb, hnone]

/-- A transform takes its own source off the record, if it succeeds, and no other. -/
theorem pending_transform (hi : h.Infallible) (path : Path) (code : Text) (s : Session σ π) :
    (outcome (h.transform path code s)).2.Pending q ↔
      s.Pending q ∧ ¬ (sourceId path = q ∧ (outcome (h.transform path code s)).1 = .ok true) := by
  cases hb : s.build with
  | none =>
      rw [outcome_transform_none hb]
      simp [Session.not_pending_of_new hb]
  | some b =>
      cases hh : h.handles s path with
      | false =>
          rw [transform_of_not_handles hb hh]
          simp [outcome]
      | true =>
          obtain ⟨p, outputs, hs⟩ := transform_of_handles hi hb hh code
          rw [hs]
          show Session.Pending { s with program := p, build := some _ } q ↔ _
          rw [Session.pending_of_build rfl, Session.pending_of_build hb, PathMap.contains_erase,
            ← same_iff_eq hq (normalize_sourceId path)]
          cases (sourceId path).same q <;> simp [outcome]

/-- Reading a source and transforming it takes that source off, if it succeeds, and no other. -/
theorem pending_transformSource (hi : h.Infallible) (path : Path) (s : Session σ π) :
    (outcome (h.transformSource path s)).2.Pending q ↔
      s.Pending q ∧ ¬ (sourceId path = q ∧ (outcome (h.transformSource path s)).1 = .ok true) := by
  rcases h.transformSource_cases path s with hleft | ⟨f, -, -, hrun⟩
  · simp [hleft, outcome]
  · have htransform := pending_transform hq hi (sourceId path) f.text s
    rwa [sourceId_sourceId, ← hrun] at htransform

/-- A pass over all the sources takes off those it settles. -/
theorem pending_transformSources (hi : h.Infallible) (s : Session σ π) :
    (outcome (h.transformSources s)).2.Pending q ↔
      s.Pending q ∧ ¬ h.Settles ⟨.transformSources, s⟩ q := by
  cases hb : s.build with
  | none =>
      have hout : outcome (h.transformSources s) = (.error .notStarted, s) := by
        rw [transformSources, outcome_bind_error (outcome_started_none hb)]
      rw [hout]
      simp [Session.not_pending_of_new hb]
  | some b =>
      obtain ⟨n, s', b', hs', hb', -, hpending⟩ :=
        transformAll_settles hi hb (h.loadable s.program b)
      have hout : h.transformSources s = .ok n s' := by
        rw [transformSources, SessionM.bind_ok (SessionM.started_eq hb), SessionM.get_bind]
        exact hs'
      rw [hout]
      show s'.Pending q ↔ _
      rw [Session.pending_of_build hb', hpending, Session.pending_of_build hb]
      simp [Settles, hb, same_iff_eq hq (normalize_sourceId _)]

/-- A change arms what it arms, and what was pending stays unless the change settles it. -/
theorem pending_invalidate (path : Path) (s : Session σ π) :
    (outcome (h.invalidate path s)).2.Pending q ↔
      h.Arms ⟨.invalidate path, s⟩ q ∨ s.Pending q ∧ ¬ h.Settles ⟨.invalidate path, s⟩ q := by
  obtain ⟨r, s', hout, hcase⟩ := h.exists_invalidates path s
  cases hcase with
  | left hh => simp [Arms, Settles, hout, hh]
  | failed =>
      simp only [Arms, Settles, hout]
      simp [Session.Pending, Session.drifted]
  | @read b refreshed c version hb hh hc =>
      simp only [Arms, Settles, hout, hh]
      rw [Session.pending_of_build rfl, Session.pending_of_build hb, contains_afterChange]
      by_cases hid : sourceId path = q
      · -- The place itself: the source there is gone, or it is there and perhaps changed.
        subst hid
        cases hsource : h.compiler.source? c.2 (sourceId path) with
        | none => simp [hsource, Session.drifted]
        | some f => cases refreshed <;> simp [hsource, Session.drifted, taken_afterChange]
      · have hother : (sourceId path).same q = false := by
          rw [← Bool.not_eq_true, same_iff_eq hq (normalize_sourceId path)]
          exact hid
        simp [hid, hother]

/-- A flush takes off what it settles. -/
theorem pending_writeBundle (s : Session σ π) :
    (outcome (h.writeBundle s)).2.Pending q ↔ s.Pending q ∧ ¬ h.Settles ⟨.writeBundle, s⟩ q := by
  cases hb : s.build with
  | none =>
      have hout : outcome (h.writeBundle s) = (.error .notStarted, s) := by
        rw [writeBundle, outcome_bind_error (outcome_started_none hb)]
      rw [hout]
      simp [Session.not_pending_of_new hb]
  | some b =>
      cases hf : b.flushed with
      | true =>
          rw [writeBundle_of_flushed hb hf]
          simp [Settles, hb, hf]
      | false =>
          obtain ⟨b', calls, notes, hgathers, hb'⟩ := h.gathers_writeBundle hb hf
          have hsettles : h.Settles ⟨.writeBundle, s⟩ q ↔ ∃ f ∈ h.compiler.sources s.program,
              b.filter.accepts f.path.normalize = true ∧ f.path.normalize.same q = true := by
            constructor
            · rintro ⟨b₁, hb₁, -, haccept, f, hmem, rfl⟩
              rw [← Option.some.inj (hb.symm.trans hb₁)] at haccept
              exact ⟨f, hmem, haccept, Path.same_self _⟩
            · rintro ⟨f, hmem, haccept, hs⟩
              obtain rfl := (same_iff_eq hq (Path.normalize_normalize _)).mp hs
              exact ⟨b, hb, hf, haccept, f, hmem, rfl⟩
          rw [Session.pending_of_build hb', hgathers.pending, Session.pending_of_build hb, hsettles]

/-- **One call** arms some places and settles others; no other place becomes pending, or ceases to be. -/
theorem pending_call (hi : h.Infallible) (v : Visit σ π) :
    (h.leave v).Pending q ↔ h.Arms v q ∨ v.session.Pending q ∧ ¬ h.Settles v q := by
  obtain ⟨c, s⟩ := v
  -- A call that only settles places: it arms none.
  have honly {P R : Prop} (hp : P ↔ R) : P ↔ False ∨ R := hp.trans (or_iff_right id).symm
  cases c with
  | start => exact pending_start hq s
  | transform path code => exact honly (pending_transform hq hi path code s)
  | transformSource path => exact honly (pending_transformSource hq hi path s)
  | transformSources => exact honly (pending_transformSources hq hi s)
  | invalidate path => exact pending_invalidate hq path s
  | writeBundle => exact honly (pending_writeBundle hq s)

end

/-! ## All calls -/

/-- The visits that lead from a session to another, as in a `Run`. -/
inductive Visits (h : Host σ π) (drift : σ → σ → Prop) (s₀ : Session σ π) :
    List (Visit σ π) → Session σ π → Prop where
  | nil : Visits h drift s₀ [] s₀
  | call {visits : List (Visit σ π)} {s : Session σ π} (hv : Visits h drift s₀ visits s) (c : Call) :
      Visits h drift s₀ (visits ++ [⟨c, s⟩]) (h.leave ⟨c, s⟩)
  | drift {visits : List (Visit σ π)} {s : Session σ π} (hv : Visits h drift s₀ visits s) {c : σ × π}
      (hd : drift s.bench.world c.1) : Visits h drift s₀ visits (s.drifted c)

/-- The place has been armed, and not been settled since. -/
def Armed (h : Host σ π) (visits : List (Visit σ π)) (q : Path) : Prop :=
  LastOf (fun _ v => h.Arms v q) (fun v => ¬ h.Settles v q) visits

variable {drift : σ → σ → Prop} {s₀ : Session σ π} {visits : List (Visit σ π)}

/-- **What is pending** in a session can be read off its visits. -/
theorem Visits.pending_iff (hi : h.Infallible) (hv : h.Visits drift s₀ visits s)
    (h₀ : s₀.build = none) {q : Path} (hq : q.normalize = q) : s.Pending q ↔ h.Armed visits q := by
  induction hv with
  | nil => exact iff_of_false (Session.not_pending_of_new h₀ q) not_lastOf_nil
  | call _ c ih => rw [pending_call hq hi, Armed, lastOf_append, ← Armed, ih]
  | drift _ _ ih => exact ih

/-! ## What a flush asks for -/

/-- A flush asks for the sources at some places, for each of them once, and for nothing else; all that
    comes back is recorded, and of the sources that the filter takes none is left. -/
structure FlushesOnly (h : Host σ π) (log : π → List Path) (P : Path → Prop) (b : Build)
    (s s' : Session σ π) (b' : Build) (calls : List Emission) : Prop where
  build : s'.build = some b'
  emits : h.compiler.Emits s.bench.world s.program calls s'.program
  log : log s'.program = log s.program ++ calls.map (·.source)
  once : (calls.map (·.source)).Nodup
  exact : ∀ q, q ∈ calls.map (·.source) ↔ P q
  owned : ∀ e ∈ calls, ∀ o ∈ e.outputs b.publicRoot, b'.outputs.Owns e.source o.path
  /-- What comes back is recorded in turn, and nothing else but copies of declarations. -/
  recorded : ∃ notes, b'.outputs = Accumulator.recordNotes notes b.outputs ∧
    (calls.map (·.note b.publicRoot)).Sublist notes ∧
    ∀ n ∈ notes, n ∈ calls.map (·.note b.publicRoot) ∨
      h.options.copyDeclarations = true ∧ ∃ f ∈ h.compiler.sources s.program, f.isDeclaration = true ∧
        b.filter.accepts f.path.normalize = true ∧ n = f.copyNote
  settled : ∀ f ∈ h.compiler.sources s.program, b.filter.accepts f.path = true →
    b'.pending.contains f.path = false

/-- **A flush that is not skipped** asks for what is pending, if the sources of the program have folded
    names. -/
theorem flushesOnly_writeBundle {log : π → List Path} (hlog : h.compiler.Logs log)
    (hb : s.build = some b) (hf : b.flushed = false)
    (hnames : ∀ f ∈ h.compiler.sources s.program, f.path.normalize = f.path) :
    ∃ b' calls, h.FlushesOnly log (fun q => (∃ f ∈ h.compiler.sources s.program, f.path = q) ∧
      b.filter.accepts q = true ∧ s.Pending q) b s (outcome (h.writeBundle s)).2 b' calls := by
  obtain ⟨b', calls, notes, hgathers, hb'⟩ := h.gathers_writeBundle hb hf
  have hsource : ∀ e ∈ calls, e.source.normalize = e.source := by
    intro e he
    obtain ⟨f, hmem, hpath, -⟩ := hgathers.sound e he
    rw [← hpath]
    exact hnames f hmem
  refine ⟨b', calls, hb', hgathers.emits, hgathers.emits.log hlog, ?_, fun q => ?_, ?_, ?_, ?_⟩
  · have honce : ((calls.map (·.source)).map Path.normalize).Nodup := by
      rw [List.map_map]
      exact hgathers.once
    exact List.Pairwise.of_map Path.normalize (fun _ _ hne heq => hne (congrArg Path.normalize heq)) honce
  · rw [List.mem_map, Session.pending_of_build hb]
    constructor
    · rintro ⟨e, he, rfl⟩
      obtain ⟨f, hmem, hpath, haccept, hpend⟩ := hgathers.sound e he
      rw [hpath, hsource e he] at haccept hpend
      exact ⟨⟨f, hmem, hpath⟩, haccept, hpend⟩
    · rintro ⟨⟨f, hmem, rfl⟩, haccept, hpend⟩
      have hcomplete := hgathers.complete f hmem
      rw [hnames f hmem] at hcomplete
      obtain ⟨e, he, heq⟩ := hcomplete haccept hpend
      exact ⟨e, he, (hsource e he).symm.trans heq⟩
  · intro e he o ho
    have hnote : e.note b.publicRoot ∈ notes := hgathers.noted.subset (List.mem_map_of_mem he)
    rw [hgathers.build]
    refine Accumulator.owns_recordNotes.mpr (.inr ⟨_, hnote, ?_, o, ho, Path.same_self _⟩)
    rw [Emission.note, hsource e he]
    exact Path.same_self _
  · exact ⟨notes, by rw [hgathers.build], hgathers.noted, hgathers.notes⟩
  · intro f hmem haccept
    rw [← Bool.not_eq_true, hgathers.pending]
    rintro ⟨-, hnone⟩
    refine hnone ⟨f, hmem, ?_, ?_⟩
    · rw [hnames f hmem]
      exact haccept
    · rw [hnames f hmem]
      exact Path.same_self _

/-- **Nothing is lost, and nothing made twice.** After any visits, the pending places are those that have
    been armed and not been settled since; and a flush that is not skipped asks for exactly the sources
    of the program that the filter takes and that are armed, for each of them once, records all that
    comes back, and leaves none of them pending. -/
theorem Visits.flush_exact {log : π → List Path} (hi : h.Infallible) (hlog : h.compiler.Logs log)
    (hv : h.Visits drift s₀ visits s) (h₀ : s₀.build = none) (hb : s.build = some b)
    (hnames : ∀ f ∈ h.compiler.sources s.program, f.path.normalize = f.path) :
    (∀ q : Path, q.normalize = q → (b.pending.contains q = true ↔ h.Armed visits q)) ∧
      ((outcome (h.writeBundle s)).1 ≠ .ok none → ∃ b' calls,
        h.FlushesOnly log (fun q => (∃ f ∈ h.compiler.sources s.program, f.path = q) ∧
          b.filter.accepts q = true ∧ h.Armed visits q) b s (outcome (h.writeBundle s)).2 b' calls) := by
  have hpending (q : Path) (hq : q.normalize = q) : s.Pending q ↔ h.Armed visits q :=
    hv.pending_iff hi h₀ hq
  constructor
  · intro q hq
    rw [← hpending q hq, Session.pending_of_build hb]
  · intro hskip
    have hf : b.flushed = false := by
      rw [← Bool.not_eq_true]
      intro hflushed
      rw [writeBundle_of_flushed hb hflushed] at hskip
      exact hskip rfl
    obtain ⟨b', calls, hflush⟩ := flushesOnly_writeBundle hlog hb hf hnames
    refine ⟨b', calls, { hflush with exact := fun q => ?_ }⟩
    rw [hflush.exact]
    constructor
    · rintro ⟨⟨f, hmem, rfl⟩, haccept, hpend⟩
      exact ⟨⟨f, hmem, rfl⟩, haccept, (hpending _ (hnames f hmem)).mp hpend⟩
    · rintro ⟨⟨f, hmem, rfl⟩, haccept, harmed⟩
      exact ⟨⟨f, hmem, rfl⟩, haccept, (hpending _ (hnames f hmem)).mpr harmed⟩

/-- The built-in resolvers do not fail. -/
theorem infallible_builtIns (hr : h.registry = .withBuiltIns []) : h.Infallible := by
  intro r hmem w source p
  rw [hr, show (Registry.withBuiltIns [] : Registry σ π).resolvers = builtInResolvers from rfl] at hmem
  simp only [builtInResolvers, List.mem_cons, List.not_mem_nil, or_false] at hmem
  rcases hmem with rfl | rfl | rfl
  · have hget (k : π → EStateM BuildError π (List OutputFile)) : (get >>= k) p = k p p := rfl
    simp only [jsonResolver, hget]
    cases h.compiler.source? p source.path <;> exact ⟨_, _, rfl⟩
  · show ∃ outputs p', Component.resolver.outputs h.compiler w source p = .ok outputs p'
    unfold Component.resolver
    dsimp only
    split
    · exact ⟨_, _, rfl⟩
    · split
      split <;> exact ⟨_, _, rfl⟩
  · exact ⟨_, _, rfl⟩

end Host

/-! ## A source that is transformed first -/

/-- The compiler with a list of the sources that it has been asked for. -/
def Compiler.logged (c : Compiler σ π) : Compiler σ (π × List Path) where
  source? p := c.source? p.1
  sources p := c.sources p.1
  isExternal p := c.isExternal p.1
  diagnostics p := c.diagnostics p.1
  options p := c.options p.1
  currentDir p := c.currentDir p.1
  emit w source := fun p =>
    let (files, p') := c.emit w source p.1
    (files, (p', p.2 ++ [source]))
  refresh path := fun (w, p) =>
    match c.refresh path (w, p.1) with
    | .ok b (w, p') => .ok b (w, (p', p.2))
    | .error e (w, p') => .error e (w, (p', p.2))

theorem Compiler.logs_logged (c : Compiler σ π) : c.logged.Logs Prod.snd := fun _ _ _ => rfl

/-- Builds what the tables say, and keeps a list of what it asks for. -/
def loggedHost : Host Files.Memory (DryRun.TableProgram × List Path) where
  options := .ofRoot "/p"
  files := Files.Memory.store
  compiler := DryRun.TableProgram.compiler.logged
  registry := .withBuiltIns []

/-- A session of two sources, before its start. -/
def twoSources : Session Files.Memory (DryRun.TableProgram × List Path) :=
  .create {} ({
    currentDir := "/p/src"
    sources := [⟨"/p/src/a.ts", "a"⟩, ⟨"/p/src/b.ts", "b"⟩]
    emits := [("/p/src/a.ts", ⟨"a.d.ts", "a"⟩), ("/p/src/b.ts", ⟨"b.d.ts", "b"⟩)] }, [])

/-- The session after its start. -/
def twoSourcesStarted : Session Files.Memory (DryRun.TableProgram × List Path) :=
  loggedHost.leave ⟨.start, twoSources⟩

/-- The session after one of its sources has been transformed. -/
def oneTransformed : Session Files.Memory (DryRun.TableProgram × List Path) :=
  loggedHost.leave ⟨.transform "/p/src/a.ts?used" "", twoSourcesStarted⟩

/-- The start and the transformation. -/
def twoVisits : List (Visit Files.Memory (DryRun.TableProgram × List Path)) :=
  [] ++ [⟨.start, twoSources⟩] ++ [⟨.transform "/p/src/a.ts?used" "", twoSourcesStarted⟩]

theorem visits_oneTransformed :
    loggedHost.Visits (fun _ _ => True) twoSources twoVisits oneTransformed :=
  .call (.call .nil _) _

/-- The flush asks for the other source only. -/
theorem log_oneTransformed :
    (outcome (loggedHost.writeBundle oneTransformed)).1 ≠ .ok none ∧
      (outcome (loggedHost.writeBundle oneTransformed)).2.program.2
        = (["/p/src/a.ts", "/p/src/b.ts"] : List Path) := by
  decide +kernel

theorem flush_exact_oneTransformed : ∃ b b' calls, oneTransformed.build = some b ∧
    (b.pending.contains "/p/src/b.ts" = true ↔ loggedHost.Armed twoVisits "/p/src/b.ts") ∧
    loggedHost.FlushesOnly Prod.snd
      (fun q => (∃ f ∈ loggedHost.compiler.sources oneTransformed.program, f.path = q) ∧
        b.filter.accepts q = true ∧ loggedHost.Armed twoVisits q)
      b oneTransformed (outcome (loggedHost.writeBundle oneTransformed)).2 b' calls := by
  obtain ⟨b, hb⟩ := Option.isSome_iff_exists.mp
    (show oneTransformed.build.isSome = true by decide +kernel)
  obtain ⟨hpending, hflush⟩ := Host.Visits.flush_exact (Host.infallible_builtIns rfl)
    (Compiler.logs_logged _) visits_oneTransformed rfl hb (by decide +kernel)
  obtain ⟨b', calls, hflushes⟩ := hflush log_oneTransformed.1
  exact ⟨b, b', calls, hb, hpending _ (by decide +kernel), hflushes⟩

end Typings
