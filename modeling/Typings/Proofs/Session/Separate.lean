import Typings.Proofs.Output.Accumulator
import Typings.Proofs.Output.Writes
import Typings.Session
import Typings.Watch

/-!
# `Separate` — programs whose sources have separate declarations

The programs of a separate host differ in their sources only.  Every source is a script that the compiler
makes declarations for; their names come from the source's path and their texts from its own text, and
no two sources of a program have a declaration at the same place.

A recorded output is looked at source by source.  `Current` says that an accumulator holds for a path
what the program has there: the declarations of the source, or nothing.

* `SeparateHost`: the host, its programs, and all that is assumed of them.
* `Recorded`, `Current`: what holds of an accumulator at any time, and for a path that is up to date.
* `current_record_self`, `current_forget_self`: recording and forgetting bring a path up to date.
* `current_record_of_ne`, `current_forget_of_ne`: and they leave the others so.
* `entries_eq`: accumulators that are up to date everywhere hold the same files.
-/

namespace Typings

open Accumulator (recordAll lastAt?)

variable {σ π : Type}

/-- A source that a build makes declarations for: a script other than a declaration, known by its
    folded path, that the filter takes. -/
structure SourceFile.Taken (filter : SourceFilter) (f : SourceFile) : Prop where
  script : f.isScript = true
  notDeclaration : f.isDeclaration = false
  folded : f.path.normalize = f.path
  noQuery : '?' ∉ f.path.text
  accepted : filter.accepts f.path = true

/-- A host with a class of programs whose sources have separate declarations. -/
structure SeparateHost (σ π : Type) where
  host : Host σ π
  /-- The writes that a world has seen. -/
  log : σ → List OutputFile
  filter : SourceFilter
  /-- The compiler's options, the same for all programs. -/
  options : CompilerOptions
  rootDir : Path
  currentDir : Path
  /-- The declarations of a source with a path and a text. -/
  emission : Path → Text → List EmittedFile
  /-- The programs. -/
  Programs : π → Prop
  filter_eq : SourceFilter.ofGlobs host.options.root host.options.included host.options.excluded
    = .ok filter
  rootDir_eq : options.rootDir = some rootDir
  /-- Nothing is made but declarations of scripts. -/
  noTypesEntry : host.options.insertTypesEntry = false
  noRollup : host.options.rollupTypes = false
  noCopies : host.options.copyDeclarations = false
  /-- The owner of the build keeps out of it. -/
  noHooks : host.hooks = {}
  /-- Resolvers are for other files than scripts. -/
  noResolver : ∀ p : Path, ScriptName.isScript p.text = true → host.registry.dispatch? p = none
  /-- Writes succeed. -/
  keeps : Files.Keeps host.files log
  options_eq : ∀ {p}, Programs p → host.compiler.options p = options
  currentDir_eq : ∀ {p}, Programs p → host.compiler.currentDir p = currentDir
  taken : ∀ {p f}, Programs p → f ∈ host.compiler.sources p → f.Taken filter
  own : ∀ {p f}, Programs p → f ∈ host.compiler.sources p → host.compiler.isExternal p f = false
  /-- A source is found at its path and nowhere else. -/
  source?_iff : ∀ {p q f}, Programs p → q.normalize = q →
    (host.compiler.source? p q = some f ↔ f ∈ host.compiler.sources p ∧ f.path = q)
  noSidecar : ∀ {p f}, Programs p → f ∈ host.compiler.sources p →
    host.compiler.source? p (Host.sidecar f.path) = none
  /-- The declarations of a source come from its path and text, and making them changes no source. -/
  emit : ∀ {p f}, Programs p → f ∈ host.compiler.sources p → ∀ w,
    (host.compiler.emit w f.path p).1 = emission f.path f.text ∧
    Programs (host.compiler.emit w f.path p).2 ∧
    host.compiler.sources (host.compiler.emit w f.path p).2 = host.compiler.sources p
  /-- The names of the declarations come from the path alone. -/
  names_eq : ∀ q t t', (emission q t).map (·.name) = (emission q t').map (·.name)
  /-- Reading a source again may change it, take it in or drop it.  It changes no other source, and takes
      each one that the program has then. -/
  refresh : ∀ {p}, Programs p → ∀ q w, q.normalize = q → ∃ b w' p',
    host.compiler.refresh q (w, p) = .ok b (w', p') ∧ log w' = log w ∧ Programs p' ∧
    (∀ f : SourceFile, f.path ≠ q → (f ∈ host.compiler.sources p' ↔ f ∈ host.compiler.sources p)) ∧
    ((host.compiler.source? p' q).isSome = true → b = true)
  /-- The declarations of two sources are recorded at different places. -/
  separate : ∀ {p f g}, Programs p → f ∈ host.compiler.sources p → g ∈ host.compiler.sources p →
    f.path ≠ g.path → ∀ d ∈ emission f.path f.text, ∀ e ∈ emission g.path g.text,
      host.emittedKey p (host.publicRoot p) d.name ≠ host.emittedKey p (host.publicRoot p) e.name

namespace SeparateHost

variable (W : SeparateHost σ π)

/-- The sources of a program. -/
abbrev sources (p : π) : List SourceFile := W.host.compiler.sources p

/-- Where the sources of all programs are anchored. -/
def publicRoot : Path := (W.host.options.root.resolve W.rootDir).normalize

/-- The place that a declaration is recorded at. -/
def key (name : Path) : Path :=
  W.publicRoot.resolve (W.currentDir.relative (W.currentDir.resolve name))

/-- What is recorded for a source. -/
def outputs (q : Path) (t : Text) : List OutputFile :=
  (W.emission q t).map fun e => ⟨W.key e.name, e.text⟩

/-- The places of what is recorded for a source. -/
def places (q : Path) : List Path := (W.outputs q []).map (·.path)

variable {W}

theorem map_path_outputs (q : Path) (t : Text) : (W.outputs q t).map (·.path) = W.places q := by
  have h (t : Text) : (W.outputs q t).map (·.path) = ((W.emission q t).map (·.name)).map W.key := by
    rw [outputs, List.map_map, List.map_map]
    rfl
  rw [places, h, h, W.names_eq q t []]

theorem normalize_key (name : Path) : (W.key name).normalize = W.key name :=
  Path.normalize_resolve _ _

theorem normalize_of_mem_places {q k : Path} (h : k ∈ W.places q) : k.normalize = k := by
  obtain ⟨o, ho, rfl⟩ := List.mem_map.mp h
  obtain ⟨e, -, rfl⟩ := List.mem_map.mp ho
  exact normalize_key e.name

theorem path_mem_places {q : Path} {t : Text} {o : OutputFile} (h : o ∈ W.outputs q t) :
    o.path ∈ W.places q := by
  rw [← map_path_outputs q t]
  exact List.mem_map_of_mem h

theorem publicRoot_eq {p : π} (hp : W.Programs p) : W.host.publicRoot p = W.publicRoot := by
  rw [Host.publicRoot, W.options_eq hp, W.rootDir_eq]
  rfl

theorem emittedKey_eq {p : π} (hp : W.Programs p) (name : Path) :
    W.host.emittedKey p W.publicRoot name = W.key name := by
  rw [Host.emittedKey, W.currentDir_eq hp]
  rfl

/-- The places of two sources of a program are different. -/
theorem not_mem_places {p : π} (hp : W.Programs p) {f g : SourceFile} (hf : f ∈ W.sources p)
    (hg : g ∈ W.sources p) (hne : f.path ≠ g.path) {k : Path} (hk : k ∈ W.places f.path) :
    k ∉ W.places g.path := by
  intro hk'
  rw [← map_path_outputs _ f.text, outputs, List.map_map] at hk
  rw [← map_path_outputs _ g.text, outputs, List.map_map] at hk'
  obtain ⟨d, hd, rfl⟩ := List.mem_map.mp hk
  obtain ⟨e, he, heq⟩ := List.mem_map.mp hk'
  have hsep := W.separate hp hf hg hne d hd e he
  rw [publicRoot_eq hp, emittedKey_eq hp, emittedKey_eq hp] at hsep
  exact hsep heq.symm

/-! ## What is recorded -/

/-- What holds of recorded outputs at any time: they belong to sources known by their folded paths, at
    the places of these sources. -/
structure Recorded (W : SeparateHost σ π) (a : Accumulator) : Prop where
  sound : a.Sound
  owners : a.owners.Folded
  taken : ∀ {q k : Path}, q.normalize = q → a.Owns q k →
    W.filter.accepts q = true ∧ ScriptName.isScript q.text = true
  owned : ∀ {q k : Path}, q.normalize = q → a.Owns q k → ∃ k' ∈ W.places q, k'.same k = true

/-- What is recorded for a path is what a program with these sources has there. -/
structure Current (W : SeparateHost σ π) (a : Accumulator) (sources : List SourceFile) (q : Path) : Prop where
  owns : ∀ f ∈ sources, f.path = q → ∀ k ∈ W.places q, a.Owns q k
  content : ∀ f ∈ sources, f.path = q → ∀ k ∈ W.places q,
    a.files.get? k = lastAt? (W.outputs q f.text) k
  gone : (∀ f ∈ sources, f.path ≠ q) → ∀ k, ¬ a.Owns q k

theorem recorded_empty : W.Recorded {} where
  sound := Accumulator.sound_empty
  owners := PathMap.folded_empty
  taken _ h := absurd h (Accumulator.not_owns_empty _ _)
  owned _ h := absurd h (Accumulator.not_owns_empty _ _)

theorem current_empty {sources : List SourceFile} {q : Path} (hq : ∀ f ∈ sources, f.path ≠ q) :
    W.Current {} sources q where
  owns f hf he := absurd he (hq f hf)
  content f hf he := absurd he (hq f hf)
  gone _ _ := Accumulator.not_owns_empty _ _

theorem Current.congr {a : Accumulator} {sources sources' : List SourceFile} {q : Path}
    (h : W.Current a sources q) (he : ∀ f : SourceFile, f.path = q → (f ∈ sources ↔ f ∈ sources')) :
    W.Current a sources' q where
  owns f hf hq := h.owns f ((he f hq).mpr hf) hq
  content f hf hq := h.content f ((he f hq).mpr hf) hq
  gone hgone := h.gone fun f hf hq => hgone f ((he f hq).mp hf) hq

theorem owners_recordAll {a : Accumulator} (h : a.owners.Folded) {source : Path}
    (hs : source.normalize = source) (os : List OutputFile) :
    (recordAll source os a).owners.Folded := by
  induction os generalizing a with
  | nil => exact h
  | cons o os ih => exact ih (h.insert hs _)

theorem Recorded.record {a : Accumulator} (h : W.Recorded a) {f : SourceFile}
    (hf : f.Taken W.filter) (t : Text) : W.Recorded (recordAll f.path (W.outputs f.path t) a) where
  sound := h.sound.recordAll f.path fun _ ho => normalize_of_mem_places (path_mem_places ho)
  owners := owners_recordAll h.owners hf.folded _
  taken {r k} hr ho := by
    rcases Accumulator.owns_recordAll.mp ho with hold | ⟨hs, -⟩
    · exact h.taken hr hold
    · rw [← Path.eq_of_same hf.folded hr hs]
      exact ⟨hf.accepted, hf.script⟩
  owned {r k} hr ho := by
    rcases Accumulator.owns_recordAll.mp ho with hold | ⟨hs, o, hmem, hok⟩
    · exact h.owned hr hold
    · rw [← Path.eq_of_same hf.folded hr hs]
      exact ⟨o.path, path_mem_places hmem, hok⟩

theorem Recorded.forget {a : Accumulator} (h : W.Recorded a) (q : Path) : W.Recorded (a.forget q) where
  sound := h.sound.forget q
  owners := h.owners.erase q
  taken hr ho := h.taken hr (Accumulator.owns_forget.mp ho).2
  owned hr ho := h.owned hr (Accumulator.owns_forget.mp ho).2

theorem lastAt?_isSome {os : List OutputFile} {o : OutputFile} (h : o ∈ os) :
    (lastAt? os o.path).isSome = true := by
  rw [lastAt?, Option.isSome_map, List.find?_isSome]
  exact ⟨o, List.mem_reverse.mpr h, Path.same_self _⟩

/-- Recording the declarations of a source brings its path up to date. -/
theorem current_record_self {p : π} (hp : W.Programs p) {f : SourceFile} (hf : f ∈ W.sources p)
    (a : Accumulator) :
    W.Current (recordAll f.path (W.outputs f.path f.text) a) (W.sources p) f.path := by
  have hfolded := (W.taken hp hf).folded
  -- The program has one source at the path.
  have hone (g : SourceFile) (hg : g ∈ W.sources p) (he : g.path = f.path) : g = f := by
    have h := (W.source?_iff hp hfolded).mpr ⟨hg, he⟩
    rw [(W.source?_iff hp hfolded).mpr ⟨hf, rfl⟩] at h
    exact (Option.some.inj h).symm
  refine ⟨fun g hg he k hk => ?_, fun g hg he k hk => ?_, fun hgone => absurd rfl (hgone f hf)⟩
  · rw [← map_path_outputs _ f.text] at hk
    obtain ⟨o, ho, rfl⟩ := List.mem_map.mp hk
    exact Accumulator.owns_recordAll.mpr (.inr ⟨Path.same_self _, o, ho, Path.same_self _⟩)
  · obtain rfl := hone g hg he
    rw [← map_path_outputs _ g.text] at hk
    obtain ⟨o, ho, rfl⟩ := List.mem_map.mp hk
    rw [Accumulator.get?_recordAll]
    obtain ⟨t, ht⟩ := Option.isSome_iff_exists.mp (lastAt?_isSome ho)
    rw [ht]
    rfl

/-- Recording the declarations of a source leaves the other paths up to date. -/
theorem current_record_of_ne {p : π} (hp : W.Programs p) {f : SourceFile} (hf : f ∈ W.sources p)
    {a : Accumulator} {q : Path} (hq : q.normalize = q) (hne : f.path ≠ q)
    (h : W.Current a (W.sources p) q) :
    W.Current (recordAll f.path (W.outputs f.path f.text) a) (W.sources p) q where
  owns g hg he k hk := Accumulator.owns_recordAll.mpr (.inl (h.owns g hg he k hk))
  content g hg he k hk := by
    subst he
    have hother (o : OutputFile) (ho : o ∈ W.outputs f.path f.text) : o.path.same k = false := by
      rw [Bool.eq_false_iff]
      intro hs
      have hk' := path_mem_places ho
      rw [Path.eq_of_same (normalize_of_mem_places hk') (normalize_of_mem_places hk) hs] at hk'
      exact not_mem_places hp hf hg hne hk' hk
    rw [Accumulator.get?_recordAll, Accumulator.lastAt?_eq_none hother, Option.none_or]
    exact h.content g hg rfl k hk
  gone hgone k ho := by
    rcases Accumulator.owns_recordAll.mp ho with ho | ⟨hs, -⟩
    · exact h.gone hgone k ho
    · exact hne (Path.eq_of_same (W.taken hp hf).folded hq hs)

/-- Forgetting a source that is gone brings its path up to date. -/
theorem current_forget_self {a : Accumulator} {sources : List SourceFile} {q : Path}
    (hq : ∀ f ∈ sources, f.path ≠ q) : W.Current (a.forget q) sources q where
  owns f hf he := absurd he (hq f hf)
  content f hf he := absurd he (hq f hf)
  gone _ k ho := by
    have hs := (Accumulator.owns_forget.mp ho).1
    rw [Path.same_self] at hs
    exact absurd hs (by decide)

/-- Forgetting a source leaves the other paths up to date: what one of them owns is shared. -/
theorem current_forget_of_ne {a : Accumulator} (ha : W.Recorded a) {sources : List SourceFile}
    {q r : Path} (hne : r.same q = false)
    (h : W.Current a sources q) : W.Current (a.forget r) sources q where
  owns f hf he k hk := Accumulator.owns_forget.mpr ⟨hne, h.owns f hf he k hk⟩
  content f hf he k hk := by
    rw [Accumulator.get?_forget_of_kept ha.sound.owners fun _ => ⟨q, hne, h.owns f hf he k hk⟩]
    exact h.content f hf he k hk
  gone hgone k ho := h.gone hgone k (Accumulator.owns_forget.mp ho).2

/-- **Up to date means determined.** Two accumulators that are up to date everywhere hold the same
    files. -/
theorem entries_eq {a a' : Accumulator} {sources : List SourceFile} (ha : W.Recorded a)
    (ha' : W.Recorded a') (hc : ∀ q, q.normalize = q → W.Current a sources q)
    (hc' : ∀ q, q.normalize = q → W.Current a' sources q) : a.files.entries = a'.files.entries := by
  -- A stored place has an owner, the owner is a source, and what it has there is determined.
  have hsub {a a' : Accumulator} (ha : W.Recorded a)
      (hc : ∀ q, q.normalize = q → W.Current a sources q)
      (hc' : ∀ q, q.normalize = q → W.Current a' sources q) (k : Path)
      (hk : a.files.get? k ≠ none) : a'.files.get? k = a.files.get? k := by
    obtain ⟨s, ho⟩ := ha.sound.owned k hk
    obtain ⟨set, hset, -⟩ := Accumulator.owns_iff.mp ho
    obtain ⟨q, hmem, hqs⟩ := PathMap.mem_of_get? hset
    have hq : q.normalize = q := ha.owners q (List.mem_map_of_mem hmem)
    have hoq : a.Owns q k := (Accumulator.owns_congr hqs (Path.same_self k)).mpr ho
    obtain ⟨k', hk', hs⟩ := ha.owned hq hoq
    by_cases hheld : ∃ f ∈ sources, f.path = q
    · obtain ⟨f, hf, he⟩ := hheld
      rw [← PathMap.get?_congr hs, ← PathMap.get?_congr hs, (hc q hq).content f hf he k' hk',
        (hc' q hq).content f hf he k' hk']
    · exact absurd hoq ((hc q hq).gone (fun f hf he => hheld ⟨f, hf, he⟩) k)
  refine PathMap.ext_get? ha.sound.files ha'.sound.files ha.sound.folded ha'.sound.folded fun k => ?_
  by_cases hk : a.files.get? k = none
  · by_cases hk' : a'.files.get? k = none
    · rw [hk, hk']
    · exact hsub ha' hc' hc k hk'
  · exact (hsub ha hc hc' k hk).symm

end SeparateHost

end Typings
