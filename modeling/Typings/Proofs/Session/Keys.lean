import Typings.Proofs.PublicRoot
import Typings.Proofs.Session.Sidecars

/-!
# `Keys` — the places that outputs are recorded at

An output is recorded below the public root, where a file of the compiler or of a resolver lies, or at the
place of a source, where a declaration is copied or belongs to a script.  So every place is folded, and a
place below the public root is absolute just if the public root is.  That is so if the options name the root
or if there is a source to find it from; a program without one has an empty public root, and its outputs are
recorded at relative places (`Visits.recorded_absolute_iff`).

* `Compiler.Alike`: programs that differ in nothing that places depend on.
* `Host.Recordable`: the places that something can be recorded at.
* `Host.Keeps`: a session whose outputs lie at some places; each call keeps them there (`keeps_call`).
* `Compiler.Placed`, `Host.Anchored`: absolute programs, and those with an absolute public root.
-/

namespace Typings

variable {σ π : Type}

/-- The program after a request answers for its sources and its directory as before. -/
structure Compiler.Alike (c : Compiler σ π) (p p' : π) : Prop where
  source? : ∀ q, c.source? p' q = c.source? p q
  sources : c.sources p' = c.sources p
  currentDir : c.currentDir p' = c.currentDir p

namespace Compiler.Alike

variable {c : Compiler σ π} {p p' p'' : π}

theorem refl (p : π) : c.Alike p p := ⟨fun _ => rfl, rfl, rfl⟩

theorem trans (h : c.Alike p p') (h' : c.Alike p' p'') : c.Alike p p'' :=
  ⟨fun q => (h'.source? q).trans (h.source? q), h'.sources.trans h.sources,
    h'.currentDir.trans h.currentDir⟩

end Compiler.Alike

/-! ## Places of recorded outputs -/

namespace Accumulator

/-- Every recorded output lies where `P` says. -/
def Lies (P : Path → Prop) (a : Accumulator) : Prop := ∀ q ∈ a.files.keys, P q

variable {P : Path → Prop} {a : Accumulator}

theorem lies_empty (P : Path → Prop) : Lies P {} := fun _ hq => absurd hq List.not_mem_nil

theorem Lies.recordAll (h : a.Lies P) (source : Path) {outputs : List OutputFile}
    (ho : ∀ o ∈ outputs, P o.path) : (recordAll source outputs a).Lies P :=
  List.foldlRecOn _ _ h fun a ha o ho' q hq => by
    rcases PathMap.mem_keys_insert hq with rfl | hq
    · exact ho o ho'
    · exact ha q hq

theorem Lies.recordNotes (h : a.Lies P) {notes : List Note}
    (hn : ∀ n ∈ notes, ∀ o ∈ n.outputs, P o.path) : (recordNotes notes a).Lies P :=
  List.foldlRecOn _ _ h fun _ ha n hn' => ha.recordAll n.source (hn n hn')

theorem Lies.forget (h : a.Lies P) (source : Path) : (a.forget source).Lies P := by
  have hkept : ∀ q ∈ ((a.dropped source).foldl PathMap.erase a.files).keys, P q :=
    List.foldlRecOn (motive := fun m : PathMap Text => ∀ q ∈ m.keys, P q) _ _ h
      fun m hm p _ q hq => hm q (PathMap.mem_keys_erase hq)
  exact hkept

end Accumulator

open Accumulator (recordNotes)

namespace Host

variable {h : Host σ π} {s : Session σ π} {b b' : Build} {P : Path → Prop} {p p' : π} {root : Path}

/-- The places that something can be recorded at while a session works with a program: those of files from
    the compiler and from resolvers, which lie below the public root, and those of sources. -/
inductive Recordable (h : Host σ π) (p : π) (root : Path) : Path → Prop where
  | emitted (name : Path) : h.Recordable p root (h.emittedKey p root name)
  | resolved (path : Path) : h.Recordable p root (h.resolvedKey root path)
  | sidecar {q : Path} {f : SourceFile} (hf : h.compiler.source? p q = some f) :
      h.Recordable p root f.path.normalize
  | copied {f : SourceFile} (hf : f ∈ h.compiler.sources p) : h.Recordable p root f.path.normalize

/-- Making declarations leaves the program alike. -/
structure Unmoved (h : Host σ π) : Prop where
  emit : ∀ w path p, h.compiler.Alike p (h.compiler.emit w path p).2
  resolve : ∀ r ∈ h.registry.resolvers, ∀ w source p,
    h.compiler.Alike p (outcome (r.outputs h.compiler w source p)).2

/-- The built-in resolvers do no more to the program than the compiler does. -/
theorem unmoved_builtIns (hr : h.registry = .withBuiltIns [])
    (hemit : ∀ w path p, h.compiler.Alike p (h.compiler.emit w path p).2) : h.Unmoved where
  emit := hemit
  resolve r hmem w source p := by
    rcases program_of_builtIn (hr ▸ hmem) h.compiler w source p with heq | ⟨path, heq⟩
    · rw [heq]
      exact .refl p
    · rw [heq]
      exact hemit w path p

theorem recordable_congr (ha : h.compiler.Alike p p') {q : Path} (hq : h.Recordable p' root q) :
    h.Recordable p root q := by
  cases hq with
  | emitted name =>
      rw [emittedKey, ha.currentDir]
      exact .emitted name
  | resolved path => exact .resolved path
  | sidecar hf =>
      rw [ha.source?] at hf
      exact .sidecar hf
  | copied hf =>
      rw [ha.sources] at hf
      exact .copied hf

theorem recordable_sidecarOutputs {id : Path} {o : OutputFile} (ho : o ∈ h.sidecarOutputs p b id) :
    h.Recordable p root o.path := by
  rw [sidecarOutputs] at ho
  cases hf : h.compiler.source? p (sidecar id) with
  | none =>
      rw [hf] at ho
      exact absurd ho List.not_mem_nil
  | some f =>
      rw [hf] at ho
      dsimp only at ho
      split at ho
      · rw [List.mem_singleton.mp ho]
        exact .sidecar hf
      · exact absurd ho List.not_mem_nil

/-- The program stays alike when declarations are made, and they lie where something can be recorded. -/
theorem Declares.recordable (hu : h.Unmoved) {w : σ} {p₀ p : π} {root id : Path} {code : Text}
    {r : Except BuildError (List OutputFile)} (hd : h.Declares w p₀ root id code r p) :
    h.compiler.Alike p₀ p ∧ ∀ outputs, r = .ok outputs → ∀ o ∈ outputs, h.Recordable p₀ root o.path := by
  have hresolve {r : Resolver σ π} (hd : h.registry.dispatch? id = some r) :=
    hu.resolve r (List.mem_of_find?_eq_some hd) w ⟨id, code, root, h.options.outDir⟩ p₀
  cases hd with
  | resolved hd hr =>
      have hkept := hresolve hd
      rw [hr] at hkept
      refine ⟨hkept, ?_⟩
      rintro outputs ⟨⟩ o ho
      obtain ⟨o, -, rfl⟩ := List.mem_map.mp ho
      exact .resolved o.path
  | failed hd hr =>
      have hkept := hresolve hd
      rw [hr] at hkept
      exact ⟨hkept, fun outputs h => nomatch h⟩
  | @emitted f =>
      have hkept := hu.emit w f.path p₀
      refine ⟨hkept, ?_⟩
      rintro outputs ⟨⟩ o ho
      obtain ⟨e, -, rfl⟩ := List.mem_map.mp ho
      exact recordable_congr hkept (.emitted e.name)
  | absent =>
      refine ⟨.refl _, ?_⟩
      rintro outputs ⟨⟩ o ho
      exact absurd ho List.not_mem_nil

/-! ## Sessions that keep to some places -/

/-- The session has started and works with the public root and with a program like `p`, and its outputs lie
    where `P` says. -/
structure Keeps (h : Host σ π) (P : Path → Prop) (p : π) (root : Path) (s : Session σ π) : Prop where
  alike : h.compiler.Alike p s.program
  build : ∃ b, s.build = some b ∧ b.publicRoot = root ∧ b.outputs.Lies P

section

variable (hu : h.Unmoved) (hP : ∀ q, h.Recordable p root q → P q)

include hu hP

theorem keeps_transform (hk : h.Keeps P p root s) (path : Path) (code : Text) :
    h.Keeps P p root (outcome (h.transform path code s)).2 := by
  obtain ⟨halike, b, hb, rfl, hlies⟩ := hk
  obtain ⟨r, s', hrun, hends⟩ := h.exists_transformEnds hb path code
  rw [hrun]
  cases hends with
  | left => exact ⟨halike, b, hb, rfl, hlies⟩
  | failed _ hd => exact ⟨halike.trans (hd.recordable hu).1, _, rfl, rfl, hlies⟩
  | made _ hd =>
      obtain ⟨halike', houtputs⟩ := hd.recordable hu
      refine ⟨halike.trans halike', _, rfl, rfl, hlies.recordAll (sourceId path) fun o ho => ?_⟩
      rcases List.mem_append.mp ho with ho | ho
      · exact hP _ (recordable_congr halike (houtputs _ rfl o ho))
      · exact hP _ (recordable_congr (halike.trans halike') (recordable_sidecarOutputs ho))

theorem keeps_transformAll (hk : h.Keeps P p root s) (fs : List SourceFile) :
    h.Keeps P p root (outcome (h.transformAll fs s)).2 :=
  transformAll_preserves (P := h.Keeps P p root)
    (fun _ path code hk => keeps_transform hu hP hk path code) fs hk

theorem keeps_transformSource (hk : h.Keeps P p root s) (path : Path) :
    h.Keeps P p root (outcome (h.transformSource path s)).2 := by
  rcases h.transformSource_cases path s with hleft | ⟨f, -, -, hrun⟩
  · rw [hleft]
    exact hk
  · rw [hrun]
    exact keeps_transform hu hP hk (sourceId path) f.text

end

/-- What the compiler gives in answer to some requests lies where something can be recorded. -/
theorem Unmoved.recordable_outputs (hu : h.Unmoved) {w : σ} {calls : List Emission}
    (he : h.compiler.Emits w p calls p') {e : Emission} (hmem : e ∈ calls) {o : OutputFile}
    (ho : o ∈ e.outputs root) : h.Recordable p root o.path := by
  induction he with
  | nil => exact absurd hmem List.not_mem_nil
  | @cons p p' calls source _ ih =>
      have hkept := hu.emit w source p
      refine recordable_congr hkept ?_
      rcases List.mem_cons.mp hmem with rfl | hmem
      · obtain ⟨f, -, rfl⟩ := List.mem_map.mp ho
        exact .emitted f.name
      · exact ih hmem

theorem publicRoot_afterChange (b : Build) (id : Path) (refreshed gone : Bool) :
    (afterChange b id refreshed gone).1.publicRoot = b.publicRoot := by
  unfold afterChange
  split
  · dsimp only
    split <;> rfl
  · split <;> rfl

/-- **One call** of a started session keeps the public root, and records only where something can be recorded
    with the program of that time. -/
theorem keeps_call (hu : h.Unmoved) (v : Visit σ π) (hb : v.session.build = some b)
    (hP : ∀ q, h.Recordable v.session.program b.publicRoot q → P q) (hlies : b.outputs.Lies P) :
    ∃ b', (h.leave v).build = some b' ∧ b'.publicRoot = b.publicRoot ∧ b'.outputs.Lies P := by
  obtain ⟨c, s⟩ := v
  have hk : h.Keeps P s.program b.publicRoot s := ⟨.refl _, b, hb, rfl, hlies⟩
  cases c with
  | start =>
      refine ⟨b, ?_, rfl, hlies⟩
      show (outcome (h.start s)).2.build = _
      rw [start_of_started hb]
      exact hb
  | transform path code => exact (keeps_transform hu hP hk path code).build
  | transformSource path => exact (keeps_transformSource hu hP hk path).build
  | transformSources =>
      show ∃ b', (outcome (h.transformSources s)).2.build = some b' ∧ _
      rw [transformSources, SessionM.bind_ok (SessionM.started_eq hb), SessionM.get_bind]
      exact (keeps_transformAll hu hP hk (h.loadable s.program b)).build
  | invalidate path =>
      obtain ⟨r, s', hout, hcase⟩ := h.exists_invalidates path s
      show ∃ b', (outcome (h.invalidate path s)).2.build = some b' ∧ _
      rw [hout]
      cases hcase with
      | left => exact ⟨b, hb, rfl, hlies⟩
      | failed => exact ⟨b, hb, rfl, hlies⟩
      | read hb' =>
          obtain rfl := Option.some.inj (hb'.symm.trans hb)
          refine ⟨_, rfl, publicRoot_afterChange _ _ _ _, ?_⟩
          rw [outputs_afterChange]
          split
          · exact hlies.forget (sourceId path)
          · exact hlies
  | writeBundle =>
      cases hf : b.flushed with
      | true =>
          refine ⟨b, ?_, rfl, hlies⟩
          show (outcome (h.writeBundle s)).2.build = _
          rw [writeBundle_of_flushed hb hf]
          exact hb
      | false =>
          obtain ⟨b', calls, notes, hgathers, hb'⟩ := h.gathers_writeBundle hb hf
          refine ⟨b', hb', hgathers.publicRoot, ?_⟩
          rw [hgathers.build]
          refine hlies.recordNotes fun n hn o ho => ?_
          rcases hgathers.notes n hn with hn | ⟨-, f, hf, -, -, rfl⟩
          · obtain ⟨e, he, rfl⟩ := List.mem_map.mp hn
            exact hP _ (hu.recordable_outputs hgathers.emits he ho)
          · rw [List.mem_singleton.mp ho]
            exact hP _ (.copied hf)

/-! ## All calls -/

variable {drift : σ → σ → Prop} {s₀ : Session σ π} {visits : List (Visit σ π)}

/-- What is recorded in a session lies where something could be recorded at one of its visits; the public root
    is the one that was found when it started. -/
theorem Visits.recordable (hu : h.Unmoved) (hv : h.Visits drift s₀ visits s) (h₀ : s₀.build = none)
    (hb : s.build = some b) :
    (∃ v ∈ visits, v.call = .start ∧ v.session.build = none ∧
      b.publicRoot = h.publicRoot v.session.program) ∧
    b.outputs.Lies fun q => ∃ v ∈ visits, h.Recordable v.session.program b.publicRoot q := by
  induction hv generalizing b with
  | nil => exact absurd (h₀.symm.trans hb) nofun
  | @call visits s hv c ih =>
      cases hbefore : s.build with
      | none =>
          rcases build_call_of_new (h := h) ⟨c, s⟩ hbefore with hnone | ⟨b', hc, hb', houtputs, hroot⟩
          · exact absurd (hnone.symm.trans hb) nofun
          · rw [Option.some.inj (hb.symm.trans hb'), houtputs]
            exact ⟨⟨⟨c, s⟩, List.mem_append_right _ (List.mem_singleton_self _), hc, hbefore, hroot⟩,
              Accumulator.lies_empty _⟩
      | some b' =>
          obtain ⟨⟨v, hvisit, hstart⟩, hlies⟩ := ih hbefore
          obtain ⟨b'', hb'', hroot, hlies'⟩ := keeps_call hu ⟨c, s⟩ hbefore
            (P := fun q => ∃ v ∈ visits ++ [⟨c, s⟩], h.Recordable v.session.program b'.publicRoot q)
            (fun q hq => ⟨⟨c, s⟩, List.mem_append_right _ (List.mem_singleton_self _), hq⟩)
            fun q hq => by
              obtain ⟨v, hv, hq⟩ := hlies q hq
              exact ⟨v, List.mem_append_left _ hv, hq⟩
          rw [Option.some.inj (hb.symm.trans hb''), hroot]
          exact ⟨⟨v, List.mem_append_left _ hvisit, hstart⟩, hlies'⟩
  | drift _ _ ih => exact ih hb

end Host

/-! ## Absolute places -/

/-- The program gives its directory, its configuration and its sources by absolute paths. -/
structure Compiler.Placed (c : Compiler σ π) (p : π) : Prop where
  currentDir : (c.currentDir p).isAbsolute = true
  configFile : ∀ file, (c.options p).configFile = some file → file.isAbsolute = true
  source? : ∀ q f, c.source? p q = some f → f.path.isAbsolute = true
  sources : ∀ f ∈ c.sources p, f.path.isAbsolute = true

/-- The program has a source at the place. -/
def Compiler.Holds (c : Compiler σ π) (p : π) (q : Path) : Prop :=
  ∃ f, (f ∈ c.sources p ∨ ∃ asked, c.source? p asked = some f) ∧ f.path.normalize = q

/-- The way from an absolute directory to a place that is seen from it leads on from anywhere. -/
theorem Path.isAbsolute_resolve_way {dir : Path} (hd : dir.isAbsolute = true) (root name : Path) :
    (root.resolve (dir.relative (dir.resolve name))).isAbsolute = root.isAbsolute := by
  have hway := Path.isAbsolute_relative hd (Path.isAbsolute_resolve hd name)
  rw [Path.resolve_of_relative hway, Path.isAbsolute_normalize, Path.isAbsolute_join hway]

namespace Host

variable {h : Host σ π} {s : Session σ π} {b : Build} {p : π} {root q : Path}

/-- The options name the public root, the project's directory is the public root, or there is a source to
    find it from. -/
inductive Anchored (h : Host σ π) (p : π) : Prop where
  | named {dir : Path} (hdir : (h.compiler.options p).rootDir = some dir)
  | project {file up : Path} (hdir : (h.compiler.options p).rootDir = none)
    (hfile : (h.compiler.options p).configFile = some file)
    (hcomposite : (h.compiler.options p).composite = true) (hup : file.parent? = some up)
  | sources {f : SourceFile} (hdir : (h.compiler.options p).rootDir = none)
    (hfree : (h.compiler.options p).configFile = none ∨ (h.compiler.options p).composite = false)
    (hf : f ∈ h.compiler.sources p) (hemitted : h.compiler.isEmitted p f = true)

/-- The public root of an absolute program is absolute just if something anchors it. -/
theorem isAbsolute_publicRoot_iff (hp : h.compiler.Placed p) (hroot : h.options.root.isAbsolute = true) :
    (h.publicRoot p).isAbsolute = true ↔ h.Anchored p := by
  have hparents : ∀ f ∈ ((h.compiler.sources p).filter (h.compiler.isEmitted p)).map (·.path),
      f.parentDir.isAbsolute = true := by
    intro place hplace
    obtain ⟨f, hf, rfl⟩ := List.mem_map.mp hplace
    obtain ⟨hf, hemitted⟩ := List.mem_filter.mp hf
    have hscript : ScriptName.isScript f.path.text = true := by
      rw [Compiler.isEmitted, ScriptName.isEmitted] at hemitted
      simp only [Bool.and_eq_true] at hemitted
      exact hemitted.1.1.1
    obtain ⟨stem, ext, -, -, hname⟩ := exists_fileName?_of_isScript hscript
    exact Path.isAbsolute_parentDir_of_fileName? (hp.sources f hf) hname
  have hfound := Typings.isAbsolute_publicRoot_iff hparents
  have hsources : ((h.compiler.sources p).filter (h.compiler.isEmitted p)).map (·.path) ≠ [] ↔
      ∃ f ∈ h.compiler.sources p, h.compiler.isEmitted p f = true := by
    rw [Ne, List.map_eq_nil_iff, List.filter_eq_nil_iff]
    simp
  rw [hsources] at hfound
  rw [publicRoot, Path.isAbsolute_normalize]
  cases hdir : (h.compiler.options p).rootDir with
  | some dir => exact iff_of_true (Path.isAbsolute_resolve hroot dir) (.named hdir)
  | none =>
      -- Without a project of its own, the root is found from the sources.
      have hsearched (hfree : (h.compiler.options p).configFile = none ∨
          (h.compiler.options p).composite = false) :
          (∃ f ∈ h.compiler.sources p, h.compiler.isEmitted p f = true) ↔ h.Anchored p := by
        constructor
        · rintro ⟨f, hf, hemitted⟩
          exact .sources hdir hfree hf hemitted
        · rintro (⟨hdir'⟩ | ⟨-, hfile, hcomposite, -⟩ | ⟨-, -, hf, hemitted⟩)
          · cases hdir.symm.trans hdir'
          · rcases hfree with hnone | hplain
            · cases hnone.symm.trans hfile
            · cases hplain.symm.trans hcomposite
          · exact ⟨_, hf, hemitted⟩
      cases hfile : (h.compiler.options p).configFile with
      | none => exact hfound.trans (hsearched (.inl hfile))
      | some file =>
          cases hcomposite : (h.compiler.options p).composite with
          | false => exact hfound.trans (hsearched (.inr hcomposite))
          | true =>
              show file.parentDir.isAbsolute = true ↔ _
              rw [Path.parentDir]
              cases hup : file.parent? with
              | some up =>
                  refine iff_of_true ?_ (.project hdir hfile hcomposite hup)
                  exact (Path.isAbsolute_of_parent? hup).trans (hp.configFile file hfile)
              | none =>
                  refine iff_of_false (by decide) ?_
                  rintro (⟨hdir'⟩ | ⟨-, hfile', -, hup'⟩ | ⟨-, hfree, -, -⟩)
                  · cases hdir.symm.trans hdir'
                  · rw [← Option.some.inj (hfile.symm.trans hfile'), hup] at hup'
                    cases hup'
                  · rcases hfree with hnone | hplain
                    · cases hfile.symm.trans hnone
                    · cases hcomposite.symm.trans hplain

/-- A place that something can be recorded at is folded.  It is absolute if the public root is, or if the
    program has a source there. -/
theorem Recordable.spec (hp : h.compiler.Placed p) (hout : h.options.outDir.isAbsolute = true)
    (hq : h.Recordable p root q) :
    q.normalize = q ∧ (q.isAbsolute = true → root.isAbsolute = true ∨ h.compiler.Holds p q) ∧
      (root.isAbsolute = true → q.isAbsolute = true) := by
  cases hq with
  | emitted name =>
      have habs : (h.emittedKey p root name).isAbsolute = root.isAbsolute :=
        Path.isAbsolute_resolve_way hp.currentDir root name
      rw [habs]
      exact ⟨Path.normalize_resolve _ _, .inl, id⟩
  | resolved path =>
      have habs : (h.resolvedKey root path).isAbsolute = root.isAbsolute :=
        Path.isAbsolute_resolve_way hout root path
      rw [habs]
      exact ⟨Path.normalize_resolve _ _, .inl, id⟩
  | @sidecar asked f hf =>
      refine ⟨Path.normalize_normalize _, fun _ => .inr ⟨f, .inr ⟨asked, hf⟩, rfl⟩, fun _ => ?_⟩
      rw [Path.isAbsolute_normalize]
      exact hp.source? asked f hf
  | @copied f hf =>
      refine ⟨Path.normalize_normalize _, fun _ => .inr ⟨f, .inl hf, rfl⟩, fun _ => ?_⟩
      rw [Path.isAbsolute_normalize]
      exact hp.sources f hf

theorem isAbsolute_of_holds (hp : h.compiler.Placed p) (hq : h.compiler.Holds p q) : q.isAbsolute = true := by
  obtain ⟨f, hf | ⟨asked, hf⟩, rfl⟩ := hq
  · rw [Path.isAbsolute_normalize]
    exact hp.sources f hf
  · rw [Path.isAbsolute_normalize]
    exact hp.source? asked f hf

variable {drift : σ → σ → Prop} {s₀ : Session σ π} {visits : List (Visit σ π)}

/-- **When recorded places are absolute.**  In every run of a session with the built-in resolvers, absolute
    directories and absolute programs, every recorded place is folded.  It is absolute just if the program
    that the session started with anchors the public root, or a program of the run has a source there.  So all
    places are absolute in a session that is anchored, and in another one only those where a declaration is
    copied or belongs to a script. -/
theorem Visits.recorded_absolute_iff (hr : h.registry = .withBuiltIns [])
    (hemit : ∀ w path p, h.compiler.Alike p (h.compiler.emit w path p).2)
    (hroot : h.options.root.isAbsolute = true) (hout : h.options.outDir.isAbsolute = true)
    (hv : h.Visits drift s₀ visits s) (h₀ : s₀.build = none)
    (hplaced : ∀ v ∈ visits, h.compiler.Placed v.session.program) (hb : s.build = some b) :
    ∃ start ∈ visits, start.call = .start ∧ start.session.build = none ∧
      b.publicRoot = h.publicRoot start.session.program ∧
      ∀ o ∈ b.outputs.snapshot, o.path.normalize = o.path ∧
        (o.path.isAbsolute = true ↔
          h.Anchored start.session.program ∨ ∃ v ∈ visits, h.compiler.Holds v.session.program o.path) := by
  obtain ⟨⟨start, hvisit, hcall, hnew, hpublic⟩, hlies⟩ := hv.recordable (unmoved_builtIns hr hemit) h₀ hb
  refine ⟨start, hvisit, hcall, hnew, hpublic, fun o ho => ?_⟩
  have hkey : o.path ∈ b.outputs.files.keys := by
    obtain ⟨e, he, rfl⟩ := List.mem_map.mp ho
    exact List.mem_map_of_mem he
  obtain ⟨v, hv, hrecordable⟩ := hlies _ hkey
  obtain ⟨hfolded, hheld, habs⟩ := hrecordable.spec (hplaced v hv) hout
  rw [← isAbsolute_publicRoot_iff (hplaced start hvisit) hroot, ← hpublic]
  refine ⟨hfolded, fun h => (hheld h).imp_right fun hheld => ⟨v, hv, hheld⟩, ?_⟩
  rintro (hanchored | ⟨v', hv', hheld'⟩)
  · exact habs hanchored
  · exact isAbsolute_of_holds (hplaced v' hv') hheld'

end Host

/-! ## A program of documents -/

/-- Tables are absolute if all their entries are. -/
theorem placed_tables {t : DryRun.TableProgram} (hdir : t.currentDir.isAbsolute = true)
    (hfile : t.options.configFile = none) (hfiles : ∀ f ∈ t.files.values, f.path.isAbsolute = true) :
    tablesHost.compiler.Placed t where
  currentDir := hdir
  configFile file hf := nomatch hfile.symm.trans hf
  source? q f hf := by
    obtain ⟨place, hmem, -⟩ := PathMap.mem_of_get? hf
    exact hfiles f (List.mem_map_of_mem hmem)
  sources := hfiles

/-- A session of one document, before its start. -/
def documents : Session Files.Memory DryRun.TableProgram :=
  .create {} { currentDir := "/p/src", sources := [⟨"/p/src/data.json", "1"⟩] }

/-- The session after its start. -/
def documentsStarted : Session Files.Memory DryRun.TableProgram := tablesHost.leave ⟨.start, documents⟩

/-- The session after the document has been transformed. -/
def documentsMade : Session Files.Memory DryRun.TableProgram :=
  tablesHost.leave ⟨.transform "/p/src/data.json" "1", documentsStarted⟩

/-- The start and the transformation. -/
def documentVisits : List (Visit Files.Memory DryRun.TableProgram) :=
  [] ++ [⟨.start, documents⟩] ++ [⟨.transform "/p/src/data.json" "1", documentsStarted⟩]

theorem visits_documentsMade :
    tablesHost.Visits (fun _ _ => True) documents documentVisits documentsMade :=
  .call (.call .nil _) _

theorem placed_documents : ∀ v ∈ documentVisits, tablesHost.compiler.Placed v.session.program := by
  have hall : ∀ v ∈ documentVisits, v.session.program.currentDir.isAbsolute = true ∧
      v.session.program.options.configFile = none ∧
      ∀ f ∈ v.session.program.files.values, f.path.isAbsolute = true := by decide +kernel
  intro v hv
  obtain ⟨hdir, hfile, hfiles⟩ := hall v hv
  exact placed_tables hdir hfile hfiles

theorem alike_tables (w : Files.Memory) (path : Path) (t : DryRun.TableProgram) :
    tablesHost.compiler.Alike t (tablesHost.compiler.emit w path t).2 := ⟨fun _ => rfl, rfl, rfl⟩

/-- All directories and sources are absolute, and the declaration of the document is recorded at a relative
    place. -/
theorem document_recorded_relative :
    tablesHost.registry = .withBuiltIns [] ∧ tablesHost.options.root.isAbsolute = true ∧
      (∀ dir ∈ tablesHost.options.outDirs, dir.isAbsolute = true) ∧
      tablesHost.Visits (fun _ _ => True) documents documentVisits documentsMade ∧
      (∀ v ∈ documentVisits, tablesHost.compiler.Placed v.session.program) ∧
      documentsMade.build.map (fun b => b.outputs.snapshot.map (·.path))
        = some [("../src/data.json.d.ts" : Path)] ∧
      Path.isAbsolute "../src/data.json.d.ts" = false :=
  ⟨rfl, by decide, by decide, visits_documentsMade, placed_documents, by decide +kernel, by decide⟩

theorem recorded_absolute_iff_documents : ∃ b, documentsMade.build = some b ∧
    ∃ start ∈ documentVisits, start.call = .start ∧ start.session.build = none ∧
      b.publicRoot = tablesHost.publicRoot start.session.program ∧
      ∀ o ∈ b.outputs.snapshot, o.path.normalize = o.path ∧
        (o.path.isAbsolute = true ↔ tablesHost.Anchored start.session.program ∨
          ∃ v ∈ documentVisits, tablesHost.compiler.Holds v.session.program o.path) := by
  obtain ⟨b, hb⟩ := Option.isSome_iff_exists.mp (show documentsMade.build.isSome = true by decide +kernel)
  exact ⟨b, hb, Host.Visits.recorded_absolute_iff rfl alike_tables (by decide) (by decide)
    visits_documentsMade rfl placed_documents hb⟩

end Typings
