import Typings.Proofs.Files.Contents
import Typings.Proofs.Output.Accumulator
import Typings.Proofs.Path.Parting
import Typings.Proofs.SourceMap.Relocation

/-!
# `Replication` — copies in further directories

What was written to the output directory is copied to further directories, each file to the same place
below each of them.  If no two of the directories overlap, the copies are at different places and away from
the files they are copies of, so that every copy is still there in the end and every original is untouched
(`Writer.mirrors_replicate`).

* `Path.Apart`: directories that do not overlap.
* `FileStore.Willing`: operations that add files never fail.
* `Workbench.Gains`, `Puts`: work that cannot fail, with the files it puts and the events it reports.
* `Writer.puts_copyTo`, `puts_copyToAll`, `puts_replicate`: one copy, the copies of one file, all copies.
* `Restates`: what a copy says; `restates_copyContent`.
* `Writer.Mirrors`: what is there after the files have been copied.
-/

namespace Typings

open Accumulator (lastAt? lastAt?_append lastAt?_eq_none lastAt?_of_mem)
open Files (FileStore)

/-! ## Directories that do not overlap -/

namespace Path

/-- Neither place is the other one or lies inside it. -/
def Apart (a b : Path) : Prop := a.isWithin b = false ∧ b.isWithin a = false

instance (a b : Path) : Decidable (a.Apart b) := inferInstanceAs (Decidable (_ ∧ _))

theorem Apart.symm {a b : Path} (h : a.Apart b) : b.Apart a := ⟨h.2, h.1⟩

instance : Std.Symm Apart := ⟨fun _ _ => Apart.symm⟩

theorem isWithin_congr {p q : Path} (h : p.same q = true) (dir : Path) :
    p.isWithin dir = q.isWithin dir := by
  unfold isWithin normalize
  rw [same_iff.mp h]

/-- Of two directories that one place lies inside of, one lies inside the other. -/
theorem Apart.isWithin_eq_false {a b p : Path} (h : a.Apart b) (ha : p.isWithin a = true) :
    p.isWithin b = false := by
  by_contra hb
  rw [Bool.not_eq_false] at hb
  have hsub : ∀ {c d : Path}, c.Apart d → ¬ d.normalize.components <+: c.normalize.components := by
    intro c d hcd hpre
    have hin : c.isWithin d = true := List.isPrefixOf_iff_prefix.mpr hpre
    rw [hcd.1] at hin
    exact absurd hin (by decide)
  have hpa := List.isPrefixOf_iff_prefix.mp ha
  have hpb := List.isPrefixOf_iff_prefix.mp hb
  rcases List.prefix_or_prefix_of_prefix hpa hpb with hpre | hpre
  · exact hsub h.symm hpre
  · exact hsub h hpre

/-- Places inside of directories that do not overlap are different. -/
theorem Apart.same_eq_false {a b p q : Path} (h : a.Apart b) (hp : p.isWithin a = true)
    (hq : q.isWithin b = true) : p.same q = false := by
  by_contra hs
  rw [Bool.not_eq_false] at hs
  rw [← isWithin_congr hs, h.isWithin_eq_false hp] at hq
  exact absurd hq (by decide)

end Path

/-! ## Work that puts files -/

variable {σ α β : Type}

/-- Writing a file and making a directory never fail. -/
structure Files.FileStore.Willing (s : FileStore σ) : Prop where
  write : ∀ p t w, ∃ w', s.write p t w = .ok () w'
  createDirs : ∀ p w, ∃ w', s.createDirs p w = .ok () w'

theorem Files.Memory.willing_store : Files.Memory.store.Willing where
  write _ _ _ := ⟨_, rfl⟩
  createDirs _ _ := ⟨_, rfl⟩

/-- Some files have been put and some events reported. -/
structure Workbench.Gains (s : FileStore σ) (files : List OutputFile) (events : List Event)
    (b b' : Workbench σ) : Prop where
  text : ∀ q, s.text? b'.world q = (lastAt? files q).or (s.text? b.world q)
  events : b'.events = b.events ++ events

/-- Work that succeeds on every bench with the result `a`, puts the files and reports the events. -/
def Puts (s : FileStore σ) (op : WorkM σ α) (a : α) (files : List OutputFile) (events : List Event) :
    Prop :=
  ∀ b, ∃ b', op b = .ok a b' ∧ Workbench.Gains s files events b b'

namespace Puts

variable {s : FileStore σ} {op : WorkM σ α} {a : α} {files more : List OutputFile}
  {events later : List Event}

theorem pure (a : α) : Puts s (Pure.pure a) a [] [] :=
  fun b => ⟨b, rfl, fun _ => rfl, by rw [List.append_nil]⟩

theorem bind {k : α → WorkM σ β} {x : β} (h : Puts s op a files events)
    (hk : Puts s (k a) x more later) : Puts s (op >>= k) x (files ++ more) (events ++ later) := by
  intro b
  obtain ⟨b', hop, hgain⟩ := h b
  obtain ⟨b'', hmore, hlater⟩ := hk b'
  refine ⟨b'', ?_, ?_⟩
  · show EStateM.bind op k b = _
    rw [EStateM.bind, hop]
    exact hmore
  · constructor
    · intro q
      rw [hlater.text, hgain.text, lastAt?_append, Option.or_assoc]
    · rw [hlater.events, hgain.events, List.append_assoc]

/-- Work whose result is only looked at. -/
theorem thenPure {f : α → β} (h : Puts s op a files events) :
    Puts s (op >>= fun x => Pure.pure (f x)) (f a) files events := by
  have hlast := h.bind (k := fun x => Pure.pure (f x)) (Puts.pure (f a))
  rwa [List.append_nil, List.append_nil] at hlast

/-- Work that looks at the world, if it does the same in every world. -/
theorem world {k : σ → WorkM σ α} (h : ∀ w, Puts s (k w) a files events) :
    Puts s (WorkM.world >>= k) a files events := fun b => h b.world b

theorem reportAll (es : List Event) : Puts s (WorkM.reportAll es) () [] es :=
  fun _ => ⟨_, rfl, fun _ => rfl, rfl⟩

theorem report (e : Event) : Puts s (WorkM.report e) () [] [e] := reportAll [e]

theorem createDirs (hlawful : s.Lawful) (hwilling : s.Willing) (p : Path) :
    Puts s (WorkM.files (s.createDirs p)) () [] [] := by
  intro b
  obtain ⟨w, hw⟩ := hwilling.createDirs p b.world
  refine ⟨{ b with world := w }, by simp only [WorkM.files, hw], ?_, by rw [List.append_nil]⟩
  intro q
  have htext := hlawful.createDirs p b.world q
  rw [hw] at htext
  exact htext

theorem write (hlawful : s.Lawful) (hwilling : s.Willing) (f : OutputFile) :
    Puts s (WorkM.files (s.write f.path f.content)) () [f] [] := by
  intro b
  obtain ⟨w, hw⟩ := hwilling.write f.path f.content b.world
  refine ⟨{ b with world := w }, by simp only [WorkM.files, hw], ?_, by rw [List.append_nil]⟩
  intro q
  have hdone : outcome (s.write f.path f.content b.world) = (.ok (), w) := by rw [hw]; rfl
  rw [hlawful.write hdone, lastAt?, List.reverse_singleton, List.find?_singleton]
  cases f.path.same q <;> rfl

/-- Independent tasks: what all of them put and report, in order. -/
theorem runAll {task : α → WorkM σ β} {result : α → β} {put : α → List OutputFile}
    {told : α → List Event} {as : List α}
    (h : ∀ a ∈ as, Puts s (task a) (result a) (put a) (told a)) :
    Puts s (WorkM.runAll task as) (as.map result) (as.flatMap put) (as.flatMap told) := by
  induction as with
  | nil => exact Puts.pure []
  | cons a as ih =>
      obtain ⟨hfirst, hrest⟩ := List.forall_mem_cons.mp h
      intro b
      obtain ⟨b', hop, hgain⟩ := hfirst b
      obtain ⟨b'', hops, hgains⟩ := ih hrest b'
      refine ⟨b'', by simp only [WorkM.runAll, hop, hops, List.map_cons], ?_, ?_⟩
      · intro q
        rw [hgains.text, hgain.text, List.flatMap_cons, lastAt?_append, Option.or_assoc]
      · rw [hgains.events, hgain.events, List.append_assoc, List.flatMap_cons]

end Puts

/-! ## One copy -/

/-- A copy says what the file says: it has the same text, or it is the same map seen from elsewhere. -/
structure Restates (p : Path) (t : Text) (q : Path) (u : Text) : Prop where
  verbatim : (p.isSourceMap = true → SourceMap.parse? t = none) → u = t
  /-- Every source of the copied map leads from the directory of the copy where it led before. -/
  sources : ∀ m, p.isSourceMap = true → SourceMap.parse? t = some m → p.Plain →
    (∀ s ∈ m.sources, Path.Plain ⟨s⟩) →
    ∃ m', SourceMap.parse? u = some m' ∧ m'.sources.length = m.sources.length ∧
      ∀ (i : Nat) (hi : i < m.sources.length) (hi' : i < m'.sources.length),
        q.parentDir.resolve ⟨m'.sources[i]⟩ = p.parentDir.resolve ⟨m.sources[i]⟩

/-- A map that cannot be read. -/
def OutputFile.isUnreadableMap (f : OutputFile) : Bool :=
  f.path.isSourceMap && (SourceMap.parse? f.content).isNone

namespace Writer

/-- A copy in another directory says what the file says. -/
theorem restates_copyContent {f : OutputFile} {place : Path}
    (habs : f.path.parentDir.isAbsolute = true) (hmoved : f.path.parentDir.same place.parentDir = false) :
    Restates f.path f.content place (copyContent f place).1 := by
  unfold copyContent
  rw [hmoved, Bool.not_false, Bool.and_true]
  constructor
  · intro hunread
    by_cases hmap : f.path.isSourceMap = true
    · have hnone : rebaseSources? f.content f.path.parentDir place.parentDir = none := by
        rw [rebaseSources?, hunread hmap]
        rfl
      rw [if_pos hmap, hnone]
    · rw [if_neg hmap]
  · intro m hmap hparse hplain hsources
    obtain ⟨moved, m', hrebase, hread, hm'⟩ :=
      rebaseSources?_eq_some hparse f.path.parentDir place.parentDir
    rw [if_pos hmap, hrebase]
    refine ⟨m', hread, by rw [hm', List.length_map], ?_⟩
    intro i hi hi'
    have hsource : m'.sources[i]
        = SourceMap.moveSource f.path.parentDir place.parentDir m.sources[i] := by
      simp only [hm', List.getElem_map]
    rw [hsource]
    exact SourceMap.resolve_moveSource habs hplain.parentDir (hsources _ (List.getElem_mem hi)) _

/-- A map that cannot be read is the only thing that copying warns of. -/
theorem copyContent_warnings {f : OutputFile} {place : Path}
    (hmoved : f.path.parentDir.same place.parentDir = false) :
    (copyContent f place).2
      = if f.isUnreadableMap then [.sourceMapFailed place Layout.unreadableMap] else [] := by
  unfold copyContent OutputFile.isUnreadableMap
  rw [hmoved, Bool.not_false, Bool.and_true]
  by_cases hmap : f.path.isSourceMap = true
  · rw [if_pos hmap, hmap, Bool.true_and, rebaseSources?]
    cases SourceMap.parse? f.content <;> rfl
  · rw [if_neg hmap, if_neg (by simp [hmap])]

section

variable (w : Writer σ)

/-- Where the copy of a file lies in a directory. -/
def copyPlace (p dir : Path) : Path := dir.resolve (w.outDir.relative p)

/-- The copy of a file in a directory. -/
def copyOf (f : OutputFile) (dir : Path) : OutputFile :=
  ⟨w.copyPlace f.path dir, (copyContent f (w.copyPlace f.path dir)).1⟩

/-- What is reported about a copy: a map that cannot be read, and that the copy was written. -/
def copyEvents (f : OutputFile) (dir : Path) : List Event :=
  (if f.isUnreadableMap then [.sourceMapFailed (w.copyPlace f.path dir) Layout.unreadableMap] else []) ++
    if w.detailed then [.fileWritten (w.copyPlace f.path dir)] else []

end

variable {w : Writer σ}

theorem normalize_copyPlace (p dir : Path) : (w.copyPlace p dir).normalize = w.copyPlace p dir :=
  Path.normalize_resolve dir _

section

variable {p dir : Path} (hout : w.outDir.isAbsolute = true) (hd : dir.isAbsolute = true)
  (hin : p.StrictlyWithin w.outDir)

include hout hd hin

/-- A copy lies in the directory as the file lies in the output directory. -/
theorem strictlyWithin_copyPlace : (w.copyPlace p dir).StrictlyWithin dir :=
  (Path.relative_resolve_below hout hd hin).1

theorem relative_copyPlace : dir.relative (w.copyPlace p dir) = w.outDir.relative p :=
  (Path.relative_resolve_below hout hd hin).2

/-- A copy may be written. -/
theorem allows_copyPlace : Writer.allows { w with outDir := dir } (w.copyPlace p dir) = true := by
  have hwithin := (strictlyWithin_copyPlace hout hd hin).isWithin_parentDir hd
  rw [normalize_copyPlace] at hwithin
  rw [allows, hwithin, Bool.or_true]

/-- A copy lies in another directory than the file. -/
theorem parentDir_copyPlace (hp : p.normalize = p) (hapart : w.outDir.Apart dir) :
    p.parentDir.same (w.copyPlace p dir).parentDir = false := by
  have hfile := hin.isWithin_parentDir hout
  have hcopy := (strictlyWithin_copyPlace hout hd hin).isWithin_parentDir hd
  rw [hp] at hfile
  rw [normalize_copyPlace] at hcopy
  exact hapart.same_eq_false hfile hcopy

end

section

variable (hlawful : w.files.Lawful) (hwilling : w.files.Willing)
  (hkeep : ∀ f, w.hooks.beforeWrite f = .keep)

include hlawful hwilling

theorem puts_put (f : OutputFile) :
    Puts w.files (w.put f) () [f] (if w.detailed then [.fileWritten f.path] else []) := by
  have htell : Puts w.files (if w.detailed then WorkM.report (.fileWritten f.path) else Pure.pure ())
      () [] (if w.detailed then [.fileWritten f.path] else []) := by
    by_cases hd : w.detailed = true
    · rw [if_pos hd, if_pos hd]
      exact .report _
    · rw [if_neg hd, if_neg hd]
      exact .pure ()
  have hwrite := (Puts.write hlawful hwilling f).bind (k := fun _ => _) htell
  refine Puts.world fun world => ?_
  by_cases hd : (!w.files.isThere world f.path.parentDir) = true
  · rw [if_pos hd]
    exact (Puts.createDirs hlawful hwilling _).bind (k := fun _ => _) hwrite
  · rw [if_neg hd]
    exact hwrite

include hkeep

/-- A file that the writer allows is written where it belongs. -/
theorem puts_write {f : OutputFile} (hf : f.path.normalize = f.path) (hallow : w.allows f.path = true) :
    Puts w.files (w.write f) (some f) [f] (if w.detailed then [.fileWritten f.path] else []) := by
  have hplace : ({ f with path := f.path.normalize } : OutputFile) = f := by rw [hf]
  have hop : w.write f = (do
      w.put f
      return some f) := by
    rw [write, hkeep f]
    simp only [WriteDecision.apply, hplace]
    rw [hf, if_pos hallow]
  rw [hop]
  exact (puts_put hlawful hwilling f).thenPure

variable (hout : w.outDir.isAbsolute = true)

include hout

theorem puts_copyTo {f : OutputFile} (hf : f.path.normalize = f.path)
    (hin : f.path.StrictlyWithin w.outDir) {dir : Path} (hd : dir.isAbsolute = true)
    (hapart : w.outDir.Apart dir) :
    Puts w.files (w.copyTo f dir) (some (w.copyPlace f.path dir)) [w.copyOf f dir]
      (w.copyEvents f dir) := by
  have hwarn := copyContent_warnings (parentDir_copyPlace hout hd hin hf hapart)
  have hwrite := puts_write (w := { w with outDir := dir }) hlawful hwilling hkeep
    (f := w.copyOf f dir) (normalize_copyPlace _ _) (allows_copyPlace hout hd hin)
  rw [copyEvents, ← hwarn]
  exact (Puts.reportAll _).bind (k := fun _ => _) hwrite.thenPure

theorem puts_copyToAll {f : OutputFile} (hf : f.path.normalize = f.path)
    (hin : f.path.StrictlyWithin w.outDir) {dirs : List Path}
    (habs : ∀ dir ∈ dirs, dir.isAbsolute = true) (hapart : ∀ dir ∈ dirs, w.outDir.Apart dir) :
    Puts w.files (w.copyToAll f dirs) (dirs.map (w.copyPlace f.path)) (dirs.map (w.copyOf f))
      (dirs.flatMap (w.copyEvents f)) := by
  induction dirs with
  | nil => exact .pure []
  | cons dir dirs ih =>
      obtain ⟨hd, habs⟩ := List.forall_mem_cons.mp habs
      obtain ⟨hdir, hapart⟩ := List.forall_mem_cons.mp hapart
      have hfirst := puts_copyTo hlawful hwilling hkeep hout hf hin hd hdir
      exact hfirst.bind (ih habs hapart).thenPure

/-- All files are copied, one after the other, each to all directories. -/
theorem puts_replicate {emitted : PathMap Text} (hfolded : emitted.Folded)
    (hin : ∀ p ∈ emitted.keys, p.StrictlyWithin w.outDir) {dirs : List Path}
    (habs : ∀ dir ∈ dirs, dir.isAbsolute = true) (hapart : ∀ dir ∈ dirs, w.outDir.Apart dir) :
    Puts w.files (w.replicate emitted dirs)
      (emitted.entries.flatMap fun e => dirs.map (w.copyPlace e.1))
      (emitted.entries.flatMap fun e => dirs.map (w.copyOf ⟨e.1, e.2⟩))
      (emitted.entries.flatMap fun e => dirs.flatMap (w.copyEvents ⟨e.1, e.2⟩)) := by
  unfold replicate
  cases dirs with
  | nil =>
      have hnone {γ : Type} : (emitted.entries.flatMap fun _ => ([] : List γ)) = [] :=
        List.flatMap_eq_nil_iff.mpr fun _ _ => rfl
      simp only [List.map_nil, List.flatMap_nil, hnone]
      exact .pure []
  | cons dir dirs =>
      refine (Puts.runAll fun e he => ?_).thenPure
      have hkey : e.1 ∈ emitted.keys := List.mem_map_of_mem he
      exact puts_copyToAll hlawful hwilling hkeep hout (hfolded _ hkey) (hin _ hkey) habs hapart

end

/-! ## All copies -/

/-- What is there after files of the output directory have been copied to some directories. -/
structure Mirrors (w : Writer σ) (emitted : PathMap Text) (dirs copies : List Path)
    (b b' : Workbench σ) : Prop where
  /-- Each file has one copy in each directory, and these are all. -/
  listed : copies = emitted.entries.flatMap fun e => dirs.map (w.copyPlace e.1)
  distinct : copies.Pairwise fun c c' => c.same c' = false
  /-- A copy lies in its directory as the file lies in the output directory. -/
  placed : ∀ p ∈ emitted.keys, ∀ dir ∈ dirs, (w.copyPlace p dir).StrictlyWithin dir ∧
    dir.relative (w.copyPlace p dir) = w.outDir.relative p
  texts : ∀ e ∈ emitted.entries, ∀ dir ∈ dirs, ∃ u,
    w.files.text? b'.world (w.copyPlace e.1 dir) = some u ∧ Restates e.1 e.2 (w.copyPlace e.1 dir) u
  /-- Files that are not among the copies are as they were; so are all files of the output directory. -/
  others : ∀ q, (∀ c ∈ copies, c.same q = false) →
    w.files.text? b'.world q = w.files.text? b.world q
  kept : ∀ q, q.isWithin w.outDir = true → w.files.text? b'.world q = w.files.text? b.world q
  told : b'.events
    = b.events ++ emitted.entries.flatMap fun e => dirs.flatMap (w.copyEvents ⟨e.1, e.2⟩)

section

variable {emitted : PathMap Text} {dirs : List Path} (hordered : emitted.Ordered)
  (hfolded : emitted.Folded) (habs : ∀ dir ∈ w.outDir :: dirs, dir.isAbsolute = true)
  (hapart : (w.outDir :: dirs).Pairwise Path.Apart)
  (hin : ∀ p ∈ emitted.keys, p.StrictlyWithin w.outDir)

include hordered hfolded habs hapart hin

/-- Different copies are at different places. -/
theorem pairwise_copyPlace :
    (emitted.entries.flatMap fun e => dirs.map (w.copyPlace e.1)).Pairwise
      fun c c' => c.same c' = false := by
  obtain ⟨hout, habs⟩ := List.forall_mem_cons.mp habs
  obtain ⟨-, hdirs⟩ := List.pairwise_cons.mp hapart
  have hplace : ∀ e ∈ emitted.entries, ∀ dir ∈ dirs, (w.copyPlace e.1 dir).isWithin dir = true := by
    intro e he dir hdir
    have hkey := hin _ (List.mem_map_of_mem he)
    exact (strictlyWithin_copyPlace hout (habs dir hdir) hkey).1
  rw [List.pairwise_flatMap]
  constructor
  · -- The copies of one file are in different directories.
    intro e he
    refine List.pairwise_map.mpr (hdirs.imp_of_mem fun hdir hdir' h => ?_)
    exact h.same_eq_false (hplace e he _ hdir) (hplace e he _ hdir')
  · -- The copies of two files are in different directories, or the way to them is different.
    refine hordered.imp_of_mem fun {e e'} he he' hlt c hc c' hc' => ?_
    obtain ⟨dir, hdir, rfl⟩ := List.mem_map.mp hc
    obtain ⟨dir', hdir', rfl⟩ := List.mem_map.mp hc'
    by_cases hsame : dir = dir'
    · subst hsame
      by_contra heq
      rw [Bool.not_eq_false] at heq
      have hkey := hin _ (List.mem_map_of_mem he)
      have hkey' := hin _ (List.mem_map_of_mem he')
      have hway := congrArg dir.relative
        (Path.eq_of_same (normalize_copyPlace _ _) (normalize_copyPlace _ _) heq)
      rw [relative_copyPlace hout (habs dir hdir) hkey,
        relative_copyPlace hout (habs dir hdir) hkey'] at hway
      have hback := congrArg w.outDir.resolve hway
      rw [Path.resolve_relative (Path.isAbsolute_of_isWithin hout hkey.1),
        Path.resolve_relative (Path.isAbsolute_of_isWithin hout hkey'.1),
        hfolded _ (List.mem_map_of_mem he), hfolded _ (List.mem_map_of_mem he')] at hback
      rw [hback, Path.compare_eq_eq.mpr (Path.same_self _)] at hlt
      exact absurd hlt (by decide)
    · have h := hdirs.forall hdir hdir' hsame
      exact h.same_eq_false (hplace e he dir hdir) (hplace e' he' dir' hdir')

end

/-- **Copies in further directories.**  If neither the output directory and the further ones nor two of the
    further ones overlap, copying succeeds: each directory gets every file at the same place, with what the
    file says, and the files themselves stay as they are. -/
theorem mirrors_replicate (hlawful : w.files.Lawful) (hwilling : w.files.Willing)
    (hkeep : ∀ f, w.hooks.beforeWrite f = .keep) {emitted : PathMap Text} {dirs : List Path}
    (hordered : emitted.Ordered) (hfolded : emitted.Folded)
    (habs : ∀ dir ∈ w.outDir :: dirs, dir.isAbsolute = true)
    (hapart : (w.outDir :: dirs).Pairwise Path.Apart)
    (hin : ∀ p ∈ emitted.keys, p.StrictlyWithin w.outDir) (b : Workbench σ) :
    ∃ copies b', w.replicate emitted dirs b = .ok copies b' ∧ w.Mirrors emitted dirs copies b b' := by
  have hdistinct := pairwise_copyPlace hordered hfolded habs hapart hin
  obtain ⟨hout, habs⟩ := List.forall_mem_cons.mp habs
  obtain ⟨hbeside, -⟩ := List.pairwise_cons.mp hapart
  obtain ⟨b', hop, hgain⟩ :=
    puts_replicate hlawful hwilling hkeep hout hfolded hin habs hbeside b
  refine ⟨_, b', hop, ?_⟩
  -- What is put is a list of copies; their places are pairwise distinct, so the last write at a place is the
  -- only one.
  have hpaths : (emitted.entries.flatMap fun e => dirs.map (w.copyOf ⟨e.1, e.2⟩)).map (·.path)
      = emitted.entries.flatMap fun e => dirs.map (w.copyPlace e.1) := by
    rw [List.map_flatMap]
    simp only [List.map_map]
    rfl
  have hothers : ∀ q, (∀ c ∈ emitted.entries.flatMap fun e => dirs.map (w.copyPlace e.1),
      c.same q = false) → w.files.text? b'.world q = w.files.text? b.world q := by
    intro q hq
    rw [hgain.text, lastAt?_eq_none, Option.none_or]
    intro o ho
    refine hq o.path ?_
    rw [← hpaths]
    exact List.mem_map_of_mem ho
  constructor
  case listed => rfl
  case distinct => exact hdistinct
  case placed =>
    intro p hp dir hdir
    exact ⟨strictlyWithin_copyPlace hout (habs dir hdir) (hin p hp),
      relative_copyPlace hout (habs dir hdir) (hin p hp)⟩
  case texts =>
    intro e he dir hdir
    have hkey : e.1 ∈ emitted.keys := List.mem_map_of_mem he
    have hcopy : w.copyOf ⟨e.1, e.2⟩ dir
        ∈ emitted.entries.flatMap fun e => dirs.map (w.copyOf ⟨e.1, e.2⟩) :=
      List.mem_flatMap.mpr ⟨e, he, List.mem_map_of_mem hdir⟩
    rw [← hpaths, List.pairwise_map] at hdistinct
    have hplace : (w.copyOf ⟨e.1, e.2⟩ dir).path.same (w.copyPlace e.1 dir) = true :=
      Path.same_self _
    refine ⟨(w.copyOf ⟨e.1, e.2⟩ dir).content, ?_, restates_copyContent (f := ⟨e.1, e.2⟩) ?_ ?_⟩
    · rw [hgain.text, lastAt?_of_mem hdistinct hcopy hplace, Option.some_or]
    · have habs := (hin _ hkey).isAbsolute_parentDir hout
      rwa [hfolded _ hkey] at habs
    · exact parentDir_copyPlace hout (habs dir hdir) (hin _ hkey) (hfolded _ hkey)
        (hbeside dir hdir)
  case others => exact hothers
  case kept =>
    intro q hq
    refine hothers q fun c hc => ?_
    obtain ⟨e, he, hc⟩ := List.mem_flatMap.mp hc
    obtain ⟨dir, hdir, rfl⟩ := List.mem_map.mp hc
    have hplace := strictlyWithin_copyPlace hout (habs dir hdir)
      (hin _ (List.mem_map_of_mem he))
    exact (hbeside dir hdir).symm.same_eq_false hplace.1 hq
  case told => exact hgain.events

/-! ### In memory -/

/-- A declaration with its map, and a map that cannot be read. -/
def writtenFiles : PathMap Text := .ofList
  [("/p/dist/ui/a.d.ts", "export declare const a = 1;\n"),
    ("/p/dist/ui/a.d.ts.map",
      "\x7b\"version\":3,\"sources\":[\"../../src/ui/a.ts\"],\"mappings\":\"AAAA\"\x7d"),
    ("/p/dist/b.d.ts.map", "oops")]

/-- A writer to files in memory. -/
def memoryWriter : Writer Files.Memory where
  files := Files.Memory.store
  hooks := {}
  outDir := "/p/dist"
  strict := true
  detailed := true

/-- A bench with the written files. -/
def writtenBench : Workbench Files.Memory where
  world := .ofFiles writtenFiles.entries

theorem mirrors_replicate_types :
    let dirs : List Path := ["/p/types", "/out/es/"]
    (writtenFiles.Ordered ∧ writtenFiles.Folded ∧
      (∀ dir ∈ memoryWriter.outDir :: dirs, dir.isAbsolute = true) ∧
      (memoryWriter.outDir :: dirs).Pairwise Path.Apart ∧
      ∀ p ∈ writtenFiles.keys, p.StrictlyWithin memoryWriter.outDir) ∧
    ∃ copies b', memoryWriter.replicate writtenFiles dirs writtenBench = .ok copies b' ∧
      memoryWriter.Mirrors writtenFiles dirs copies writtenBench b' ∧
      copies = ["/p/types/b.d.ts.map", "/out/es/b.d.ts.map", "/p/types/ui/a.d.ts",
        "/out/es/ui/a.d.ts", "/p/types/ui/a.d.ts.map", "/out/es/ui/a.d.ts.map"] ∧
      b'.events.filter Event.isWarning
        = [.sourceMapFailed "/p/types/b.d.ts.map" Layout.unreadableMap,
          .sourceMapFailed "/out/es/b.d.ts.map" Layout.unreadableMap] := by
  intro dirs
  obtain ⟨hordered, hfolded, hin⟩ : writtenFiles.Ordered ∧ writtenFiles.Folded ∧
      ∀ p ∈ writtenFiles.keys, p.StrictlyWithin memoryWriter.outDir := by
    unfold PathMap.Ordered PathMap.Folded writtenFiles
    repeat rw [Text.toList_literal rfl]
    decide +kernel
  have habs : ∀ dir ∈ memoryWriter.outDir :: dirs, dir.isAbsolute = true := by decide +kernel
  have hapart : (memoryWriter.outDir :: dirs).Pairwise Path.Apart := by decide +kernel
  obtain ⟨copies, b', hop, hmirrors⟩ := mirrors_replicate (w := memoryWriter)
    Files.Memory.lawful_store Files.Memory.willing_store (fun _ => rfl) hordered hfolded habs hapart hin
    writtenBench
  refine ⟨⟨hordered, hfolded, habs, hapart, hin⟩, copies, b', hop, hmirrors, ?_, ?_⟩
  · rw [hmirrors.listed]
    unfold writtenFiles
    repeat rw [Text.toList_literal rfl]
    decide +kernel
  · rw [hmirrors.told]
    unfold writtenBench writtenFiles
    repeat rw [Text.toList_literal rfl]
    decide +kernel

end Writer

end Typings
