import Typings.Proofs.Resolver
import Typings.Proofs.Session.Records

/-!
# `Sidecars` — what becomes of declarations written by hand

A declaration written by hand beside a source is recorded when the source is transformed, and it is
recorded for the source.  It is a declaration, so it is not transformed by itself, and the source goes on
to own it, so it is not forgotten by itself either.  When it is edited or deleted, the flush that is due
writes the old text again, unless declarations are copied (`Visits.sidecar_after_flush`).

* `Host.BringsSidecar`, `Host.Beside`: the visits that record a declaration written by hand.
* `Visits.owns_sidecar`: the source owns it until the source is found gone.
* `get?_flushSource`, `get?_writeBundle`: what a flush makes of a place where nothing is emitted.
* `Host.fed`: the calls that follow a change.
* `Visits.sidecar_after_flush`: what they leave at the place of the declaration.
-/

namespace Typings

variable {σ π : Type}

open Accumulator (recordNotes recordAll lastAt?)

namespace Host

variable {h : Host σ π} {s : Session σ π} {b : Build} {drift : σ → σ → Prop} {s₀ : Session σ π}
  {visits : List (Visit σ π)} {id : Path}

/-! ## Recorded for the source -/

/-- A name that is given a declaration's ending becomes another name. -/
theorem sidecar_ne (id : Path) : sidecar id ≠ id := by
  intro heq
  obtain ⟨t, ht⟩ : ∃ t, id.text = t ++ (".d.ts" : Text) := ⟨_, (congrArg Path.text heq).symm⟩
  have hext : ScriptName.extension? id.text = some ("ts" : Text) := by
    rw [ht]
    simp [ScriptName.extension?, ScriptName.lastSegment, Text.cutLast?, List.span_eq_takeWhile_dropWhile]
  have hstrip : ScriptName.stripScript id.text = id.text.take (id.text.length - 2 - 1) := by
    rw [ScriptName.stripScript, ScriptName.stripExtension, hext]
    rfl
  have hlength : (ScriptName.stripScript id.text).length + 5 = id.text.length := by
    have hsame := congrArg (fun p : Path => p.text.length) heq
    simpa [sidecar] using hsame
  rw [hstrip, List.length_take] at hlength
  omega

/-- A transform takes no file away. -/
theorem not_loses_of_transforms {v : Visit σ π} {gone : Path} (ht : h.Transforms v id) :
    ¬ h.Loses v gone := by
  obtain ⟨c, s⟩ := v
  cases c with
  | invalidate path => exact ht.elim
  | _ => exact fun hl => hl

/-- A visit transforms a source while the program has the declaration that belongs to it, and the filter
    takes that. -/
def BringsSidecar (h : Host σ π) (v : Visit σ π) (id : Path) : Prop :=
  h.Transforms v id ∧ ∃ b f, v.session.build = some b ∧
    h.compiler.source? v.session.program (sidecar id) = some f ∧ f.path.normalize = sidecar id ∧
    b.filter.accepts (sidecar id) = true

/-- The declaration that belongs to a source has been recorded, and the source was not found gone since. -/
def Beside (h : Host σ π) (visits : List (Visit σ π)) (id : Path) : Prop :=
  LastOf (fun _ v => h.BringsSidecar v id) (fun v => ¬ h.Loses v id) visits

/-- A script that was transformed beside its declaration owns the sidecar from then on. -/
theorem Visits.owns_sidecar (hs : h.Steady) (hv : h.Visits drift s₀ visits s)
    (hid : id.normalize = id) (hbeside : h.Beside visits id) :
    ∃ b, s.build = some b ∧ b.outputs.Owns id (sidecar id) := by
  induction hv with
  | nil => exact absurd hbeside not_lastOf_nil
  | @call visits s hv c ih =>
      rw [Beside, lastOf_append] at hbeside
      rcases hbeside with ⟨htransforms, b, f, hb, hsource, hpath, haccepts⟩ | ⟨hbeside, hkept⟩
      · obtain ⟨b', hb', hrecords⟩ := outputs_call hs ⟨c, s⟩ hb
        refine ⟨b', hb', ?_⟩
        cases hrecords with
        | forgets gone hgone _ => exact absurd hgone (not_loses_of_transforms htransforms)
        | notes notes houtputs hsidecar =>
            obtain ⟨n, hn, rfl, hout⟩ := hsidecar id htransforms
            rw [houtputs]
            refine Accumulator.owns_recordNotes.mpr (.inr ⟨n, hn, Path.same_self _, _, hout ⟨sidecar n.source, f.text⟩ ?_, Path.same_self _⟩)
            rw [sidecarOutputs, hsource]
            simp [hpath, haccepts]
      · obtain ⟨b, hb, ho⟩ := ih hbeside
        obtain ⟨b', hb', hrecords⟩ := outputs_call hs ⟨c, s⟩ hb
        exact ⟨b', hb', hrecords.owns hid ho hkept⟩
  | drift _ _ ih => exact ih hbeside

/-! ## A flush, seen at one place -/

/-- Whatever the compiler is asked for, nothing of what it makes is recorded at the place. -/
def Unemitted (h : Host σ π) (w : σ) (root q : Path) (p : π) : Prop :=
  ∀ calls p', h.compiler.Emits w p calls p' → ∀ e ∈ calls, ∀ o ∈ e.outputs root, o.path.same q = false

/-- What is not emitted to a place is not after another emission either. -/
theorem Unemitted.emit {w : σ} {root q : Path} {p : π} (hu : h.Unemitted w root q p) (source : Path) :
    h.Unemitted w root q (h.compiler.emit w source p).2 :=
  fun _ p' hcalls e he => hu _ p' (.cons source hcalls) e (List.mem_cons_of_mem _ he)

/-- No output of a declaration pass stands at such a place. -/
theorem Unemitted.request {w : σ} {root q : Path} {p : π} (hu : h.Unemitted w root q p) (source : Path) :
    ∀ o ∈ (h.compiler.request w p source).outputs root, o.path.same q = false :=
  hu _ _ (.cons source .nil) _ List.mem_cons_self

/-- The text of the source at the place that the flush copies, if it copies any. -/
def copied? (h : Host σ π) (b : Build) (f : SourceFile) (q : Path) : Option Text :=
  if b.filter.accepts f.path.normalize && h.options.copyDeclarations && f.isDeclaration &&
      f.path.normalize.same q then some f.text else none

/-- Outputs at other places leave a place as it was. -/
theorem get?_recordAll_of_ne {source q : Path} {outputs : List OutputFile} {a : Accumulator}
    (hne : ∀ o ∈ outputs, o.path.same q = false) : (recordAll source outputs a).get? q = a.get? q := by
  rw [Accumulator.get?, Accumulator.get?_recordAll, Accumulator.lastAt?_eq_none hne]
  rfl

/-- Flushing one source changes such a place only by the copy of a declaration. -/
theorem get?_flushSource {q : Path} (hu : h.Unemitted s.bench.world b.publicRoot q s.program)
    (hb : s.build = some b) (f : SourceFile) :
    ∃ p b', h.flushSource f s = .ok () { s with program := p, build := some b' } ∧
      b'.filter = b.filter ∧ h.Unemitted s.bench.world b'.publicRoot q p ∧
      b'.outputs.get? q = (h.copied? b f q).or (b.outputs.get? q) := by
  rw [flushSource, SessionM.bind_ok (SessionM.started_eq hb)]
  cases hf : b.filter.accepts f.path.normalize with
  | false =>
      refine ⟨s.program, b, ?_, rfl, hu, ?_⟩
      · rw [← hb]
        rfl
      · rw [copied?, hf]
        rfl
  | true =>
      let b₁ : Build := if h.options.copyDeclarations && f.isDeclaration then
        record f.path.normalize [⟨f.path.normalize, f.text⟩] b else b
      have hcopied : b₁.filter = b.filter ∧ b₁.publicRoot = b.publicRoot ∧ b₁.pending = b.pending ∧
          b₁.outputs.get? q = (h.copied? b f q).or (b.outputs.get? q) := by
        simp only [b₁, copied?, hf, Bool.true_and]
        cases h.options.copyDeclarations && f.isDeclaration with
        | false => exact ⟨rfl, rfl, rfl, rfl⟩
        | true =>
            refine ⟨rfl, rfl, rfl, ?_⟩
            show (b.outputs.recordFor f.path.normalize f.path.normalize f.text).get? q = _
            rw [Accumulator.get?, Accumulator.get?_recordFor, Bool.true_and]
            split <;> rfl
      obtain ⟨hfilter, hroot, hpending, hget⟩ := hcopied
      show ∃ p b', (if b₁.pending.contains f.path.normalize then _ else _ : SessionM σ π Unit) s = _ ∧ _
      split
      · -- What is pending is asked for, and nothing of it lies at the place.
        rw [← hroot] at hu
        exact ⟨_, _, rfl, hfilter, hu.emit f.path, (get?_recordAll_of_ne (hu.request f.path)).trans hget⟩
      · exact ⟨s.program, b₁, rfl, hfilter, hroot.symm ▸ hu, hget⟩

/-- The text that a flush copies to the place, the last one of some sources. -/
def copiedOf? (h : Host σ π) (b : Build) (q : Path) : List SourceFile → Option Text
  | [] => none
  | f :: fs => (copiedOf? h b q fs).or (h.copied? b f q)

theorem copiedOf?_congr {b' : Build} (hfilter : b'.filter = b.filter) (q : Path) (fs : List SourceFile) :
    h.copiedOf? b' q fs = h.copiedOf? b q fs := by
  induction fs with
  | nil => rfl
  | cons f fs ih => rw [copiedOf?, copiedOf?, ih, copied?, copied?, hfilter]

/-- Flushing the sources changes such a place only by their copies, the last of which stands. -/
theorem get?_flushSources {q : Path} (hu : h.Unemitted s.bench.world b.publicRoot q s.program)
    (hb : s.build = some b) (fs : List SourceFile) :
    ∃ p b', h.flushSources fs s = .ok () { s with program := p, build := some b' } ∧
      b'.outputs.get? q = (h.copiedOf? b q fs).or (b.outputs.get? q) := by
  induction fs generalizing s b with
  | nil =>
      refine ⟨s.program, b, ?_, rfl⟩
      rw [← hb]
      rfl
  | cons f fs ih =>
      obtain ⟨p₁, b₁, hs₁, hfilter, hu₁, hget₁⟩ := get?_flushSource hu hb f
      obtain ⟨p₂, b₂, hs₂, hget₂⟩ := ih (s := { s with program := p₁, build := some b₁ }) hu₁ rfl
      refine ⟨p₂, b₂, ?_, ?_⟩
      · rw [flushSources, SessionM.bind_ok hs₁]
        exact hs₂
      · rw [hget₂, hget₁, copiedOf?_congr hfilter, copiedOf?, Option.or_assoc]

/-- A flush that is not skipped leaves at the place what it copies there, or what was there. -/
theorem get?_writeBundle {q : Path} (hu : h.Unemitted s.bench.world b.publicRoot q s.program)
    (hb : s.build = some b) (hf : b.flushed = false) :
    ∃ b', (h.leave ⟨.writeBundle, s⟩).build = some b' ∧
      b'.outputs.get? q = (h.copiedOf? b q (h.compiler.sources s.program)).or (b.outputs.get? q) := by
  let b₁ : Build := { b with flushed := true }
  have hu₁ : h.Unemitted (begun s b).bench.world b₁.publicRoot q (begun s b).program := hu
  obtain ⟨p, b', hflush, hget⟩ :=
    get?_flushSources (s := begun s b) hu₁ rfl (h.compiler.sources s.program)
  have hfilter : b₁.filter = b.filter := rfl
  exact ⟨b', (writeBundle_of_flushSources hb hf hflush).2, by rw [hget, copiedOf?_congr hfilter]⟩

end Host

/-- The program lists at a place what it answers there, and that is a declaration. -/
structure Compiler.Lists (c : Compiler σ π) (p : π) (q : Path) : Prop where
  listed : ∀ f, c.source? p q = some f → f ∈ c.sources p ∧ f.path.normalize = q ∧ f.isDeclaration = true
  only : ∀ f ∈ c.sources p, f.path.normalize = q → c.source? p q = some f

namespace Host

variable {h : Host σ π} {s : Session σ π} {b : Build} {drift : σ → σ → Prop} {s₀ : Session σ π}
  {visits : List (Visit σ π)} {id : Path}

theorem exists_of_copiedOf? {q : Path} {fs : List SourceFile} {t : Text} (ht : h.copiedOf? b q fs = some t) :
    ∃ f ∈ fs, h.copied? b f q = some t := by
  induction fs with
  | nil => exact nomatch ht
  | cons f fs ih =>
      rw [copiedOf?] at ht
      cases hrest : h.copiedOf? b q fs with
      | none =>
          rw [hrest, Option.none_or] at ht
          exact ⟨f, List.mem_cons_self, ht⟩
      | some u =>
          rw [hrest] at ht
          obtain ⟨g, hg, hu⟩ := ih (hrest.trans ht)
          exact ⟨g, List.mem_cons_of_mem f hg, hu⟩

theorem isSome_copiedOf? {q : Path} {fs : List SourceFile} {f : SourceFile} (hf : f ∈ fs)
    (hsome : (h.copied? b f q).isSome = true) : (h.copiedOf? b q fs).isSome = true := by
  induction fs with
  | nil => exact absurd hf List.not_mem_nil
  | cons g fs ih =>
      rw [copiedOf?, Option.isSome_or, Bool.or_eq_true]
      rcases List.mem_cons.mp hf with rfl | hf
      · exact .inr hsome
      · exact .inl (ih hf)

/-- A flush copies what the program answers at the place, if declarations are copied. -/
theorem copiedOf?_sources {q : Path} {p : π} (hq : q.normalize = q) (hl : h.compiler.Lists p q)
    (haccepts : b.filter.accepts q = true) :
    h.copiedOf? b q (h.compiler.sources p)
      = if h.options.copyDeclarations then (h.compiler.source? p q).map (·.text) else none := by
  -- A source that is copied to the place is the one that the program answers there.
  have hcopied {f : SourceFile} {t : Text} (hf : f ∈ h.compiler.sources p)
      (ht : h.copied? b f q = some t) :
      h.options.copyDeclarations = true ∧ h.compiler.source? p q = some f ∧ f.text = t := by
    rw [copied?, Option.ite_none_right_eq_some] at ht
    obtain ⟨hcond, ht⟩ := ht
    simp only [Bool.and_eq_true] at hcond
    obtain ⟨⟨⟨-, hcopy⟩, -⟩, hsame⟩ := hcond
    exact ⟨hcopy, hl.only f hf ((same_iff_eq hq (Path.normalize_normalize _)).mp hsame), Option.some.inj ht⟩
  refine Option.ext fun t => ⟨fun ht => ?_, fun ht => ?_⟩
  · obtain ⟨f, hf, hf'⟩ := exists_of_copiedOf? ht
    obtain ⟨hcopy, hsource, htext⟩ := hcopied hf hf'
    rw [if_pos hcopy, hsource]
    exact congrArg some htext
  · rw [Option.ite_none_right_eq_some, Option.map_eq_some_iff] at ht
    obtain ⟨hcopy, f, hsource, rfl⟩ := ht
    obtain ⟨hf, hpath, hdecl⟩ := hl.listed f hsource
    have hsome : h.copied? b f q = some f.text := by
      rw [copied?, hpath, haccepts, hcopy, hdecl, Path.same_self]
      rfl
    obtain ⟨t, ht⟩ := Option.isSome_iff_exists.mp (isSome_copiedOf? hf (Option.isSome_of_eq_some hsome))
    obtain ⟨g, hg, hg'⟩ := exists_of_copiedOf? ht
    obtain ⟨-, hsource', htext⟩ := hcopied hg hg'
    rw [hsource] at hsource'
    rw [ht, ← htext, Option.some.inj hsource']

/-! ## A change of the declaration -/

/-- The session has been told of a change. -/
def told (h : Host σ π) (path : Path) (s : Session σ π) : Session σ π := h.leave ⟨.invalidate path, s⟩

/-- The session has been told of a change, has transformed the source, and has begun a flush. -/
def fed (h : Host σ π) (path : Path) (s : Session σ π) : Session σ π :=
  h.leave ⟨.writeBundle, h.leave ⟨.transformSource path, h.told path s⟩⟩

/-- At a place is recorded what the program has there, or nothing if it has nothing. -/
def Follows (h : Host σ π) (s : Session σ π) (q : Path) : Prop :=
  s.build.map (·.outputs.get? q) = some ((h.compiler.source? s.program q).map (·.text))

instance (s : Session σ π) (q : Path) : Decidable (h.Follows s q) := inferInstanceAs (Decidable (_ = _))

/-- A change leaves the filter as it was. -/
theorem filter_afterChange (b : Build) (id : Path) (refreshed gone : Bool) :
    (afterChange b id refreshed gone).1.filter = b.filter := by
  unfold afterChange
  split
  · dsimp only
    split <;> rfl
  · split <;> rfl

/-- A change that is taken leaves the outputs of other sources, and makes a flush due. -/
theorem invalidate_taken {path : Path} (hb : s.build = some b)
    (htaken : (outcome (h.invalidate path s)).1 = .ok true) :
    b.filter.accepts (sourceId path) = true ∧ ∃ b', (h.told path s).build = some b' ∧
      b'.flushed = false ∧ b'.filter = b.filter ∧
      (b'.outputs = b.outputs ∨ b'.outputs = b.outputs.forget (sourceId path)) := by
  obtain ⟨r, s', hout, hcase⟩ := h.exists_invalidates path s
  rw [hout] at htaken
  cases hcase with
  | left => exact nomatch htaken
  | failed => exact nomatch htaken
  | @read b' refreshed c version hb' hh hc =>
      obtain rfl := Option.some.inj (hb'.symm.trans hb)
      rw [handles_of_build hb, Bool.and_eq_true] at hh
      have htold : (h.told path s).build = some _ := congrArg (fun r => r.2.build) hout
      generalize (h.compiler.source? c.2 (sourceId path)).isNone = gone at htaken htold
      have hflushed := flushed_afterChange b' (sourceId path) refreshed gone
      rw [Except.ok.inj htaken, if_pos rfl] at hflushed
      refine ⟨hh.1, _, htold, hflushed, filter_afterChange _ _ _ _, ?_⟩
      rw [outputs_afterChange b' (sourceId path) refreshed gone]
      cases gone with
      | true => exact .inr rfl
      | false => exact .inl rfl

/-- A declaration is not transformed by itself. -/
theorem leave_transformSource {path : Path} (hl : h.compiler.Lists s.program (sourceId path)) :
    h.leave ⟨.transformSource path, s⟩ = s := by
  show (outcome (h.transformSource path s)).2 = s
  rcases h.transformSource_cases path s with hleft | ⟨f, hsource, hcode, -⟩
  · rw [hleft]
    rfl
  · obtain ⟨-, -, hdecl⟩ := hl.listed f hsource
    exact nomatch hdecl.symm.trans hcode

/-- The id of a transformed source is a plain path. -/
theorem normalize_of_transforms {v : Visit σ π} (ht : h.Transforms v id) : id.normalize = id := by
  obtain ⟨c, s⟩ := v
  cases c with
  | transform path code => exact ht.1 ▸ normalize_sourceId path
  | transformSource path => exact ht.1 ▸ normalize_sourceId path
  | transformSources =>
      obtain ⟨-, b, -, f, -, -, rfl⟩ := ht
      exact normalize_sourceId f.path
  | _ => exact ht.elim

/-- Any number of emissions leaves the sources as they were. -/
theorem Steady.emits (hs : h.Steady) {w : σ} {p p' : π} {calls : List Emission}
    (he : h.compiler.Emits w p calls p') (q : Path) : h.compiler.source? p' q = h.compiler.source? p q := by
  induction he with
  | nil => rfl
  | cons source _ ih => rw [ih, hs.emit]

/-- **A declaration written by hand keeps its first text.** It was recorded for the source that it
    belongs to, and nothing emits it.  When it has changed or is gone, the change is taken, its source
    transformed and a flush begun, then its place holds what it held before, unless the program has the
    declaration still and declarations are copied.  So what is recorded follows the program just if the
    declaration is copied, or is as it was before. -/
theorem Visits.sidecar_after_flush (hs : h.Steady) (hv : h.Visits drift s₀ visits s)
    (h₀ : s₀.build = none) (hbeside : h.Beside visits id) {path : Path} (hpath : sourceId path = sidecar id)
    (htaken : (outcome (h.invalidate path s)).1 = .ok true)
    (hlists : h.compiler.Lists (h.told path s).program (sidecar id))
    (hu : ∀ b, (h.told path s).build = some b →
      h.Unemitted (h.told path s).bench.world b.publicRoot (sidecar id) (h.told path s).program) :
    ∃ b b' before after, s.build = some b ∧ b.outputs.get? (sidecar id) = some before ∧
      (h.compiler.source? (h.told path s).program (sidecar id)).map (·.text) = after ∧
      (h.fed path s).build = some b' ∧
      b'.outputs.get? (sidecar id)
        = (if h.options.copyDeclarations then after else none).or (some before) ∧
      (h.Follows (h.fed path s) (sidecar id) ↔
        after = some before ∨ after.isSome = true ∧ h.options.copyDeclarations = true) := by
  have hq : (sidecar id).normalize = sidecar id := hpath ▸ normalize_sourceId path
  have hid : id.normalize = id := by
    obtain ⟨_, v, _, -, ⟨ht, -⟩, -⟩ := hbeside
    exact normalize_of_transforms ht
  obtain ⟨b, hb, howns⟩ := hv.owns_sidecar hs hid hbeside
  have hfilled := hv.filled hs h₀ hb
  obtain ⟨before, hbefore⟩ := Option.ne_none_iff_exists'.mp (hfilled.held _ _ howns)
  obtain ⟨haccepts, b₁, hb₁, hflushed, hfilter, houtputs⟩ := invalidate_taken hb htaken
  rw [hpath] at haccepts houtputs
  -- The source owns the place still, so what is forgotten with the declaration is not this.
  have hkept : b₁.outputs.get? (sidecar id) = some before := by
    obtain heq | heq := houtputs
    · rw [heq, hbefore]
    · rw [heq, ← hbefore]
      refine Accumulator.get?_forget_of_kept hfilled.owners fun _ => ⟨id, ?_, howns⟩
      rw [← Bool.not_eq_true, same_iff_eq hid hq]
      exact sidecar_ne id
  have hfed : h.fed path s = h.leave ⟨.writeBundle, h.told path s⟩ := by
    rw [fed, leave_transformSource (hpath ▸ hlists)]
  obtain ⟨b', hb', hget⟩ := get?_writeBundle (hu b₁ hb₁) hb₁ hflushed
  obtain ⟨_, _, _, hgathers, -⟩ := h.gathers_writeBundle hb₁ hflushed
  have hsources := hs.emits hgathers.emits (sidecar id)
  rw [copiedOf?_sources hq hlists (hfilter ▸ haccepts), hkept] at hget
  refine ⟨b, b', before, _, hb, hbefore, rfl, hfed ▸ hb', hget, ?_⟩
  show (h.fed path s).build.map _ = _ ↔ _
  rw [hfed, hb', Option.map_some, hget, Option.some.injEq,
    show h.compiler.source? (h.leave ⟨.writeBundle, h.told path s⟩).program (sidecar id) = _ from hsources]
  cases (h.compiler.source? (h.told path s).program (sidecar id)).map (·.text) with
  | none => simp
  | some after => cases h.options.copyDeclarations <;> simp [eq_comm]

/-- The built-in resolvers leave the program alone. -/
theorem steady_builtIns (hr : h.registry = .withBuiltIns [])
    (hemit : ∀ w path p q, h.compiler.source? (h.compiler.emit w path p).2 q = h.compiler.source? p q) :
    h.Steady where
  emit := hemit
  resolve r hmem w source p q := by
    rcases program_of_builtIn (hr ▸ hmem) h.compiler w source p with heq | ⟨path, heq⟩
    · rw [heq]
    · rw [heq, hemit]

end Host

/-! ## A script with declarations written by hand -/

/-- Builds what the tables say. -/
def tablesHost : Host Files.Memory DryRun.TableProgram where
  options := .ofRoot "/p"
  files := Files.Memory.store
  compiler := DryRun.TableProgram.compiler
  registry := .withBuiltIns []

theorem steady_tablesHost : tablesHost.Steady := Host.steady_builtIns rfl fun _ _ _ _ => rfl

/-- Tables without emitted files put nothing anywhere. -/
theorem unemitted_tablesHost {t : DryRun.TableProgram} (ht : t.emits = []) (w : Files.Memory)
    (root q : Path) : tablesHost.Unemitted w root q t := by
  intro calls t' hcalls
  induction hcalls with
  | nil => exact fun e he => absurd he List.not_mem_nil
  | @cons t t' calls source _ ih =>
      intro e he o ho
      rcases List.mem_cons.mp he with rfl | he
      · have hnone : (tablesHost.compiler.request w t source).files = [] := by
          show t.emitted source = []
          rw [DryRun.TableProgram.emitted, ht]
          rfl
        rw [Emission.outputs, hnone] at ho
        exact absurd ho List.not_mem_nil
      · exact ih ht e he o ho

/-- A session of a script and its declaration written by hand, before its start. -/
def legacy : Session Files.Memory DryRun.TableProgram :=
  .create {} {
    currentDir := "/p/src"
    sources := [⟨"/p/src/legacy.js", ""⟩, ⟨"/p/src/legacy.d.ts", "one"⟩] }

/-- The session after its start. -/
def legacyStarted : Session Files.Memory DryRun.TableProgram := tablesHost.leave ⟨.start, legacy⟩

/-- The session after its script has been transformed. -/
def legacyMade : Session Files.Memory DryRun.TableProgram :=
  tablesHost.leave ⟨.transform "/p/src/legacy.js" "", legacyStarted⟩

/-- The declaration has been edited. -/
def legacyEdited : Session Files.Memory DryRun.TableProgram :=
  legacyMade.drifted ({}, legacyMade.program.setSource "/p/src/legacy.d.ts" "two")

/-- The declaration has been deleted. -/
def legacyRemoved : Session Files.Memory DryRun.TableProgram :=
  legacyMade.drifted ({}, legacyMade.program.removeSource "/p/src/legacy.d.ts")

/-- The start and the transformation. -/
def legacyVisits : List (Visit Files.Memory DryRun.TableProgram) :=
  [] ++ [⟨.start, legacy⟩] ++ [⟨.transform "/p/src/legacy.js" "", legacyStarted⟩]

theorem visits_legacyMade :
    tablesHost.Visits (fun _ _ => True) legacy legacyVisits legacyMade :=
  .call (.call .nil _) _

theorem beside_legacy : tablesHost.Beside legacyVisits "/p/src/legacy.js" := by
  obtain ⟨b, hb, haccepts⟩ := (Option.any_eq_true (fun b : Build => b.filter.accepts (Host.sidecar "/p/src/legacy.js"))
    legacyStarted.build).mp (by decide +kernel)
  have hmade : sourceId "/p/src/legacy.js" = "/p/src/legacy.js" ∧
      (outcome (tablesHost.transform "/p/src/legacy.js" "" legacyStarted)).1 = .ok true := by decide +kernel
  exact lastOf_append.mpr (.inl ⟨hmade, b, ⟨"/p/src/legacy.d.ts", "one"⟩, hb, by decide +kernel,
    by decide +kernel, haccepts⟩)

theorem lists_legacyEdited : tablesHost.compiler.Lists
    (tablesHost.told "/p/src/legacy.d.ts" legacyEdited).program (Host.sidecar "/p/src/legacy.js") where
  listed f hf := by
    have htwo : tablesHost.compiler.source? (tablesHost.told "/p/src/legacy.d.ts" legacyEdited).program
        (Host.sidecar "/p/src/legacy.js") = some ⟨"/p/src/legacy.d.ts", "two"⟩ := by decide +kernel
    rw [← Option.some.inj (htwo.symm.trans hf)]
    decide +kernel
  only := by decide +kernel

theorem lists_legacyRemoved : tablesHost.compiler.Lists
    (tablesHost.told "/p/src/legacy.d.ts" legacyRemoved).program (Host.sidecar "/p/src/legacy.js") where
  listed f hf := by
    have hnone : tablesHost.compiler.source? (tablesHost.told "/p/src/legacy.d.ts" legacyRemoved).program
        (Host.sidecar "/p/src/legacy.js") = none := by decide +kernel
    exact nomatch hnone.symm.trans hf
  only := by decide +kernel

theorem visits_legacyEdited :
    tablesHost.Visits (fun _ _ => True) legacy legacyVisits legacyEdited := .drift visits_legacyMade trivial

theorem visits_legacyRemoved :
    tablesHost.Visits (fun _ _ => True) legacy legacyVisits legacyRemoved := .drift visits_legacyMade trivial

theorem sourceId_legacy : sourceId "/p/src/legacy.d.ts" = Host.sidecar "/p/src/legacy.js" := by
  decide +kernel

/-- Both changes are taken, and the first text was recorded before. -/
theorem changed_legacy : ∀ s ∈ [legacyEdited, legacyRemoved],
    (outcome (tablesHost.invalidate "/p/src/legacy.d.ts" s)).1 = .ok true ∧
      (tablesHost.told "/p/src/legacy.d.ts" s).program.emits = [] ∧
      s.build.bind (·.outputs.get? (Host.sidecar "/p/src/legacy.js")) = some "one" := by
  decide +kernel

/-- Of a declaration that is edited, and of one that is deleted, the first text is kept. -/
theorem sidecar_after_flush_legacy :
    (∃ b', (tablesHost.fed "/p/src/legacy.d.ts" legacyEdited).build = some b' ∧
      b'.outputs.get? (Host.sidecar "/p/src/legacy.js") = some "one") ∧
    (∃ b', (tablesHost.fed "/p/src/legacy.d.ts" legacyRemoved).build = some b' ∧
      b'.outputs.get? (Host.sidecar "/p/src/legacy.js") = some "one") := by
  constructor
  · obtain ⟨htaken, hemits, hwas⟩ := changed_legacy legacyEdited (by simp)
    obtain ⟨b, b', before, after, hb, hbefore, -, hb', hget, -⟩ :=
      Host.Visits.sidecar_after_flush steady_tablesHost visits_legacyEdited rfl beside_legacy
        sourceId_legacy htaken lists_legacyEdited fun _ _ => unemitted_tablesHost hemits _ _ _
    rw [hb, Option.bind_some, hbefore] at hwas
    exact ⟨b', hb', hwas ▸ hget⟩
  · obtain ⟨htaken, hemits, hwas⟩ := changed_legacy legacyRemoved (by simp)
    obtain ⟨b, b', before, after, hb, hbefore, -, hb', hget, -⟩ :=
      Host.Visits.sidecar_after_flush steady_tablesHost visits_legacyRemoved rfl beside_legacy
        sourceId_legacy htaken lists_legacyRemoved fun _ _ => unemitted_tablesHost hemits _ _ _
    rw [hb, Option.bind_some, hbefore] at hwas
    exact ⟨b', hb', hwas ▸ hget⟩

/-- The change is taken, the source transformed and a flush begun, and what is recorded does not follow
    the program, be the declaration edited or deleted. -/
theorem sidecar_not_followed :
    tablesHost.Visits (fun _ _ => True) legacy legacyVisits legacyMade ∧
      tablesHost.Beside legacyVisits "/p/src/legacy.js" ∧
      sourceId "/p/src/legacy.d.ts" = Host.sidecar "/p/src/legacy.js" ∧
      legacyMade.program.emits = [] ∧
      ∀ s ∈ [legacyEdited, legacyRemoved],
        (outcome (tablesHost.invalidate "/p/src/legacy.d.ts" s)).1 = .ok true ∧
          ¬ tablesHost.Follows (tablesHost.fed "/p/src/legacy.d.ts" s) (Host.sidecar "/p/src/legacy.js") := by
  exact ⟨visits_legacyMade, beside_legacy, sourceId_legacy, by decide +kernel, by decide +kernel⟩

end Typings
