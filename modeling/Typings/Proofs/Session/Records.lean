import Typings.Proofs.Session.Pending

/-!
# `Records` — what the calls of a session do to the recorded outputs

A call of a session records some outputs, one after the other, or it forgets those of one source that is
gone (`outputs_call`).  So a source owns what was recorded for it until it is found gone, and what is
owned is there.

* `Accumulator.Filled`: owned places hold something.
* `Host.Steady`: making declarations leaves the sources of the program alone.
* `Host.Transforms`, `Host.Loses`: the visits that record the outputs of a source, or forget them.
* `outputs_call`: one call; `Visits.filled`: all of them.
-/

namespace Typings

variable {σ π α β : Type}

/-! ## Owned places -/

namespace Accumulator

variable {a : Accumulator}

/-- The owners are in order, and the places that they own hold something. -/
structure Filled (a : Accumulator) : Prop where
  owners : a.owners.Ordered
  held : ∀ s q, a.Owns s q → a.get? q ≠ none

theorem filled_empty : Filled {} where
  owners := PathMap.ordered_empty
  held s q ho := absurd ho (not_owns_empty s q)

theorem Filled.recordFor (h : a.Filled) (source place : Path) (t : Text) :
    (a.recordFor source place t).Filled where
  owners := h.owners.insert _ _
  held s q ho := by
    rw [get?, get?_recordFor]
    rcases owns_recordFor.mp ho with ho | ⟨-, hplace⟩
    · split
      · exact Option.some_ne_none t
      · exact h.held s q ho
    · rw [if_pos hplace]
      exact Option.some_ne_none t

theorem Filled.recordNotes (h : a.Filled) (notes : List Note) : (recordNotes notes a).Filled :=
  List.foldlRecOn _ _ h fun _ ha n _ =>
    List.foldlRecOn _ _ ha fun _ ha o _ => ha.recordFor n.source o.path o.content

theorem Filled.forget (h : a.Filled) (source : Path) : (a.forget source).Filled where
  owners := h.owners.erase source
  held s q ho := by
    obtain ⟨hs, ho⟩ := owns_forget.mp ho
    rw [get?, get?_forget_of_kept h.owners fun _ => ⟨s, hs, ho⟩]
    exact h.held s q ho

end Accumulator

open Accumulator (recordNotes recordNotes_append)

/-! ## Making declarations -/

namespace Host

variable {h : Host σ π} {s s' s'' : Session σ π} {b b' b'' : Build}

/-- Making declarations leaves the sources of the program alone. -/
structure Steady (h : Host σ π) : Prop where
  emit : ∀ w path p q, h.compiler.source? (h.compiler.emit w path p).2 q = h.compiler.source? p q
  resolve : ∀ r ∈ h.registry.resolvers, ∀ w source p q,
    h.compiler.source? (outcome (r.outputs h.compiler w source p)).2 q = h.compiler.source? p q

theorem Declares.sources (hs : h.Steady) {w : σ} {p₀ p : π} {root id : Path} {code : Text}
    {r : Except BuildError (List OutputFile)} (hd : h.Declares w p₀ root id code r p) (q : Path) :
    h.compiler.source? p q = h.compiler.source? p₀ q := by
  have hresolve {r : Resolver σ π} (hd : h.registry.dispatch? id = some r) :=
    hs.resolve r (List.mem_of_find?_eq_some hd) w ⟨id, code, root, h.options.outDir⟩ p₀ q
  cases hd with
  | resolved hd hr =>
      have hkept := hresolve hd
      rwa [hr] at hkept
  | failed hd hr =>
      have hkept := hresolve hd
      rwa [hr] at hkept
  | @emitted f => exact hs.emit w f.path p₀ q
  | absent => rfl

/-- Some notes have been recorded; the sources of the program are the same. -/
structure Made (h : Host σ π) (s : Session σ π) (b : Build) (s' : Session σ π) (b' : Build)
    (notes : List Note) : Prop where
  build : s'.build = some b'
  filter : b'.filter = b.filter
  outputs : b'.outputs = recordNotes notes b.outputs
  sources : ∀ q, h.compiler.source? s'.program q = h.compiler.source? s.program q

theorem Made.refl (hb : s.build = some b) : h.Made s b s b [] := ⟨hb, rfl, rfl, fun _ => rfl⟩

theorem Made.trans {notes notes' : List Note} (h₁ : h.Made s b s' b' notes)
    (h₂ : h.Made s' b' s'' b'' notes') : h.Made s b s'' b'' (notes ++ notes') where
  build := h₂.build
  filter := h₂.filter.trans h₁.filter
  outputs := by rw [recordNotes_append, ← h₁.outputs, h₂.outputs]
  sources q := (h₂.sources q).trans (h₁.sources q)

/-- Among the notes of a source is the declaration written by hand that belongs to it. -/
def NotesSidecar (h : Host σ π) (s : Session σ π) (b : Build) (id : Path) (notes : List Note) : Prop :=
  ∃ n ∈ notes, n.source = id ∧ ∀ o ∈ h.sidecarOutputs s.program b id, o ∈ n.outputs

theorem sidecarOutputs_congr {p p' : π} (hsources : ∀ q, h.compiler.source? p' q = h.compiler.source? p q)
    (hfilter : b'.filter = b.filter) (id : Path) :
    h.sidecarOutputs p' b' id = h.sidecarOutputs p b id := by
  rw [sidecarOutputs, sidecarOutputs, hsources, hfilter]

/-- **A transformed source**: whatever comes of it, at most some notes are recorded, and if it succeeds
    the declaration written by hand is among them. -/
theorem made_transform (hs : h.Steady) (hb : s.build = some b) (path : Path) (code : Text) :
    ∃ b' notes, h.Made s b (outcome (h.transform path code s)).2 b' notes ∧
      (h.handles s path = true → ∀ taken, (outcome (h.transform path code s)).1 = .ok taken →
        h.NotesSidecar s b (sourceId path) notes) := by
  obtain ⟨r, s', hrun, hends⟩ := h.exists_transformEnds hb path code
  rw [hrun]
  cases hends with
  | left hh => exact ⟨b, [], .refl hb, fun h => nomatch hh.symm.trans h⟩
  | failed _ hd => exact ⟨_, [], ⟨rfl, rfl, rfl, hd.sources hs⟩, fun _ _ h => nomatch h⟩
  | @made outputs p _ hd =>
      refine ⟨_, [⟨sourceId path, outputs ++ h.sidecarOutputs p b (sourceId path)⟩],
        ⟨rfl, rfl, rfl, hd.sources hs⟩, fun _ _ _ => ⟨_, List.mem_singleton_self _, rfl, fun o ho => ?_⟩⟩
      rw [← sidecarOutputs_congr (hd.sources hs) rfl] at ho
      exact List.mem_append_right _ ho

theorem handles_congr (hb : s.build = some b) (hb' : s'.build = some b') (hfilter : b'.filter = b.filter)
    (path : Path) : h.handles s' path = h.handles s path := by
  rw [handles_of_build hb', handles_of_build hb, hfilter]

/-- Sources that are transformed one after the other. -/
theorem made_transformAll (hs : h.Steady) (hb : s.build = some b) (fs : List SourceFile) :
    ∃ b' notes, h.Made s b (outcome (h.transformAll fs s)).2 b' notes ∧
      ∀ n, (outcome (h.transformAll fs s)).1 = .ok n → ∀ f ∈ fs, h.handles s f.path = true →
        h.NotesSidecar s b (sourceId f.path) notes := by
  induction fs generalizing s b with
  | nil => exact ⟨b, [], .refl hb, fun _ _ f hf => absurd hf List.not_mem_nil⟩
  | cons f fs ih =>
      obtain ⟨b₁, notes₁, hmade₁, hnotes₁⟩ := made_transform hs hb f.path f.text
      cases hrun : outcome (h.transform f.path f.text s) with
      | mk r s₁ =>
          rw [hrun] at hmade₁ hnotes₁
          rw [transformAll]
          cases r with
          | error e =>
              rw [outcome_bind_error hrun]
              exact ⟨b₁, notes₁, hmade₁, fun _ h => by cases h⟩
          | ok taken =>
              rw [outcome_bind_ok hrun]
              obtain ⟨b₂, notes₂, hmade₂, hnotes₂⟩ := ih hmade₁.build
              cases hrest : outcome (h.transformAll fs s₁) with
              | mk r s₂ =>
                  rw [hrest] at hmade₂ hnotes₂
                  refine ⟨b₂, notes₁ ++ notes₂, ?_⟩
                  cases r with
                  | error e =>
                      rw [outcome_bind_error hrest]
                      exact ⟨hmade₁.trans hmade₂, fun _ h => by cases h⟩
                  | ok n =>
                      rw [outcome_bind_ok hrest]
                      refine ⟨hmade₁.trans hmade₂, fun _ _ g hg hh => ?_⟩
                      rcases List.mem_cons.mp hg with rfl | hg
                      · obtain ⟨n, hn, hid⟩ := hnotes₁ hh taken rfl
                        exact ⟨n, List.mem_append_left _ hn, hid⟩
                      · rw [← handles_congr hb hmade₁.build hmade₁.filter] at hh
                        obtain ⟨n, hn, hid, hout⟩ := hnotes₂ _ rfl g hg hh
                        refine ⟨n, List.mem_append_right _ hn, hid, ?_⟩
                        rw [← sidecarOutputs_congr hmade₁.sources hmade₁.filter]
                        exact hout

/-! ## One call -/

/-- A visit transforms the source of a place, by itself or with all others. -/
def Transforms (h : Host σ π) : Visit σ π → Path → Prop
  | ⟨.transform path code, s⟩, id => sourceId path = id ∧ (outcome (h.transform path code s)).1 = .ok true
  | ⟨.transformSource path, s⟩, id => sourceId path = id ∧ (outcome (h.transformSource path s)).1 = .ok true
  | ⟨.transformSources, s⟩, id => (∃ n, (outcome (h.transformSources s)).1 = .ok n) ∧
    ∃ b, s.build = some b ∧ ∃ f ∈ h.loadable s.program b, h.handles s f.path = true ∧ sourceId f.path = id
  | _, _ => False

/-- A visit finds the source of a place gone. -/
def Loses (h : Host σ π) : Visit σ π → Path → Prop
  | ⟨.invalidate path, s⟩, id =>
    sourceId path = id ∧ h.handles s path = true ∧ (∃ taken, (outcome (h.invalidate path s)).1 = .ok taken) ∧
      h.compiler.source? (outcome (h.invalidate path s)).2.program id = none
  | _, _ => False

theorem normalize_of_loses {v : Visit σ π} {id : Path} (hl : h.Loses v id) : id.normalize = id := by
  obtain ⟨c, s⟩ := v
  cases c with
  | invalidate path => exact hl.1 ▸ normalize_sourceId path
  | _ => exact hl.elim

theorem handles_of_transform {path : Path} {code : Text} (hb : s.build = some b)
    (h' : (outcome (h.transform path code s)).1 = .ok true) : h.handles s path = true := by
  by_contra hh
  rw [transform_of_not_handles hb (by simpa using hh)] at h'
  exact absurd (Except.ok.inj h') (by decide)

theorem outputs_afterChange (b : Build) (id : Path) (refreshed gone : Bool) :
    (afterChange b id refreshed gone).1.outputs = if gone then b.outputs.forget id else b.outputs := by
  unfold afterChange
  cases gone with
  | true =>
      rw [if_pos rfl, if_pos rfl]
      dsimp only
      split <;> rfl
  | false => cases refreshed <;> rfl

/-- What a call does to the recorded outputs: some notes are recorded, with the declaration written by
    hand for each source that is transformed; or the outputs of one source are forgotten that is gone. -/
inductive Records (h : Host σ π) (v : Visit σ π) (b b' : Build) : Prop where
  | notes (notes : List Note) (houtputs : b'.outputs = recordNotes notes b.outputs)
    (hsidecar : ∀ id, h.Transforms v id → h.NotesSidecar v.session b id notes)
  | forgets (gone : Path) (hgone : h.Loses v gone) (houtputs : b'.outputs = b.outputs.forget gone)

/-- A source that is transformed by its path. -/
theorem made_transformSource (hs : h.Steady) (hb : s.build = some b) (path : Path) :
    ∃ b' notes, h.Made s b (outcome (h.transformSource path s)).2 b' notes ∧
      ((outcome (h.transformSource path s)).1 = .ok true → h.NotesSidecar s b (sourceId path) notes) := by
  rcases h.transformSource_cases path s with hleft | ⟨f, -, -, hrun⟩
  · rw [hleft]
    exact ⟨b, [], .refl hb, fun ht => absurd (Except.ok.inj ht) (by decide)⟩
  · rw [hrun]
    obtain ⟨b', notes, hmade, hnotes⟩ := made_transform hs hb (sourceId path) f.text
    rw [sourceId_sourceId] at hnotes
    exact ⟨b', notes, hmade, fun ht => hnotes (handles_of_transform hb ht) true ht⟩

/-- A change of a source: its outputs are forgotten if the source is gone, and kept otherwise. -/
theorem records_invalidate (hb : s.build = some b) (path : Path) :
    ∃ b', (outcome (h.invalidate path s)).2.build = some b' ∧ h.Records ⟨.invalidate path, s⟩ b b' := by
  have hkept : h.Records ⟨.invalidate path, s⟩ b b := .notes [] rfl fun _ => False.elim
  obtain ⟨r, s', hout, hcase⟩ := h.exists_invalidates path s
  rw [hout]
  cases hcase with
  | left => exact ⟨b, hb, hkept⟩
  | failed => exact ⟨b, hb, hkept⟩
  | @read b' refreshed c version hb' hh hc =>
      obtain rfl := Option.some.inj (hb'.symm.trans hb)
      refine ⟨_, rfl, ?_⟩
      have houtputs := outputs_afterChange b' (sourceId path) refreshed
        (h.compiler.source? c.2 (sourceId path)).isNone
      cases hsource : h.compiler.source? c.2 (sourceId path) with
      | none =>
          rw [hsource] at houtputs
          refine .forgets (sourceId path) ⟨rfl, hh, ⟨_, by rw [hout]⟩, ?_⟩ houtputs
          rw [hout]
          exact hsource
      | some f =>
          rw [hsource] at houtputs
          exact .notes [] houtputs fun _ => False.elim

/-- **One call** of a started session. -/
theorem outputs_call (hs : h.Steady) (v : Visit σ π) (hb : v.session.build = some b) :
    ∃ b', (h.leave v).build = some b' ∧ h.Records v b b' := by
  obtain ⟨c, s⟩ := v
  cases c with
  | start =>
      refine ⟨b, ?_, .notes [] rfl fun _ => False.elim⟩
      show (outcome (h.start s)).2.build = _
      rw [start_of_started hb]
      exact hb
  | transform path code =>
      obtain ⟨b', notes, hmade, hnotes⟩ := made_transform hs hb path code
      refine ⟨b', hmade.build, .notes notes hmade.outputs ?_⟩
      rintro id ⟨rfl, htrue⟩
      exact hnotes (handles_of_transform hb htrue) true htrue
  | transformSource path =>
      obtain ⟨b', notes, hmade, hnotes⟩ := made_transformSource hs hb path
      refine ⟨b', hmade.build, .notes notes hmade.outputs ?_⟩
      rintro id ⟨rfl, htrue⟩
      exact hnotes htrue
  | transformSources =>
      obtain ⟨b', notes, hmade, hnotes⟩ := made_transformAll hs hb (h.loadable s.program b)
      have hrun : h.transformSources s = h.transformAll (h.loadable s.program b) s := by
        rw [transformSources, SessionM.bind_ok (SessionM.started_eq hb), SessionM.get_bind]
      rw [← hrun] at hmade hnotes
      refine ⟨b', hmade.build, .notes notes hmade.outputs ?_⟩
      rintro id ⟨⟨n, hn⟩, b₁, hb₁, f, hf, hh, rfl⟩
      rw [← Option.some.inj (hb.symm.trans hb₁)] at hf
      exact hnotes n hn f hf hh
  | invalidate path => exact records_invalidate hb path
  | writeBundle =>
      cases hf : b.flushed with
      | true =>
          refine ⟨b, ?_, .notes [] rfl fun _ => False.elim⟩
          show (outcome (h.writeBundle s)).2.build = _
          rw [writeBundle_of_flushed hb hf]
          exact hb
      | false =>
          obtain ⟨b', calls, notes, hgathers, hb'⟩ := h.gathers_writeBundle hb hf
          refine ⟨b', hb', .notes notes ?_ fun _ => False.elim⟩
          rw [hgathers.build]

theorem Records.filled {v : Visit σ π} (hr : h.Records v b b') (hf : b.outputs.Filled) :
    b'.outputs.Filled := by
  cases hr with
  | notes notes houtputs _ => exact houtputs ▸ hf.recordNotes notes
  | forgets gone _ houtputs => exact houtputs ▸ hf.forget gone

/-- Only a source that is found gone loses what it owns. -/
theorem Records.owns {v : Visit σ π} (hr : h.Records v b b') {id q : Path} (hid : id.normalize = id)
    (ho : b.outputs.Owns id q) (hkept : ¬ h.Loses v id) : b'.outputs.Owns id q := by
  cases hr with
  | notes notes houtputs _ =>
      rw [houtputs]
      exact Accumulator.owns_recordNotes.mpr (.inl ho)
  | forgets gone hgone houtputs =>
      rw [houtputs, Accumulator.owns_forget]
      refine ⟨?_, ho⟩
      rw [← Bool.not_eq_true, same_iff_eq hid]
      · rintro rfl
        exact hkept hgone
      · exact normalize_of_loses hgone

/-! ## All calls -/

/-- A call on a session that has not started leaves it so, unless it starts it. -/
theorem build_call_of_new (v : Visit σ π) (hb : v.session.build = none) :
    (h.leave v).build = none ∨ ∃ b, v.call = .start ∧ (h.leave v).build = some b ∧ b.outputs = {} ∧
      b.publicRoot = h.publicRoot v.session.program := by
  obtain ⟨c, s⟩ := v
  -- A call that needs a build leaves the session as it is.
  have hleft {α : Type} {r : EStateM.Result BuildError (Session σ π) α} (hrun : (outcome r).2 = s) :
      (outcome r).2.build = none := by
    rw [hrun]
    exact hb
  have hfails {α : Type} (k : Build → SessionM σ π α) : (outcome ((SessionM.started >>= k) s)).2 = s := by
    rw [outcome_bind_error (outcome_started_none hb)]
  cases c with
  | start =>
      obtain ⟨bench, -, ⟨e, heq⟩ | ⟨b, -, -, houtputs, hroot, heq⟩⟩ := h.start_cases hb
      · refine .inl ?_
        show (outcome (h.start s)).2.build = none
        rw [heq]
        exact hb
      · refine .inr ⟨b, rfl, ?_, houtputs, hroot⟩
        show (outcome (h.start s)).2.build = some b
        rw [heq]
  | transform path code => exact .inl (hleft (hfails _))
  | transformSource path =>
      refine .inl (hleft (r := h.transformSource path s) ?_)
      rcases h.transformSource_cases path s with hsame | ⟨f, -, -, hrun⟩
      · rw [hsame]
        rfl
      · rw [hrun]
        exact hfails _
  | transformSources => exact .inl (hleft (hfails _))
  | invalidate path =>
      refine .inl (hleft (r := h.invalidate path s) ?_)
      rw [outcome_invalidate_left (by rw [handles, hb])]
  | writeBundle => exact .inl (hleft (hfails _))

variable {drift : σ → σ → Prop} {s₀ : Session σ π} {visits : List (Visit σ π)}

theorem Visits.filled (hs : h.Steady) (hv : h.Visits drift s₀ visits s) (h₀ : s₀.build = none)
    (hb : s.build = some b) : b.outputs.Filled := by
  induction hv generalizing b with
  | nil => exact absurd (h₀.symm.trans hb) nofun
  | @call visits s hv c ih =>
      cases hbefore : s.build with
      | none =>
          rcases build_call_of_new (h := h) ⟨c, s⟩ hbefore with hnone | ⟨b', -, hb', houtputs, -⟩
          · exact absurd (hnone.symm.trans hb) nofun
          · rw [Option.some.inj (hb.symm.trans hb'), houtputs]
            exact Accumulator.filled_empty
      | some b' =>
          obtain ⟨b'', hb'', hrecords⟩ := outputs_call hs ⟨c, s⟩ hbefore
          rw [Option.some.inj (hb.symm.trans hb'')]
          exact hrecords.filled (ih hbefore)
  | drift _ _ ih => exact ih hb

end Host

end Typings
