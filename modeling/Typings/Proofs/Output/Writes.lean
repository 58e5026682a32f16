import Typings.Output.Writer

/-!
# `Writes` — what a flush hands to its store

A store whose writes succeed can keep a log of them beside its contents.  Seen through the log, writing
is a pure matter: which files are written, with which content and in which order depends on the recorded
outputs and their layout alone, not on what the store holds.

* `Files.Keeps`: writes succeed and are logged.
* `Writes`: work that cannot fail, with its result and its writes.
* `Writer.written?`, `Writer.copies`: the files that are written for an output, and its copies.
* `writes_writeOutputs`, `writes_replicate`: the two parts of a flush.
-/

namespace Typings

open Files (FileStore)

variable {σ α β : Type} {log : σ → List OutputFile}

/-- Writes succeed and are logged; making a directory succeeds and is no write. -/
structure Files.Keeps (files : FileStore σ) (log : σ → List OutputFile) : Prop where
  write : ∀ p t w, ∃ w', files.write p t w = .ok () w' ∧ log w' = log w ++ [⟨p, t⟩]
  createDirs : ∀ p w, ∃ w', files.createDirs p w = .ok () w' ∧ log w' = log w

/-- A store with a log of its writes beside it. -/
def Files.FileStore.logged (files : FileStore σ) : FileStore (σ × List OutputFile) :=
  { files.zoom with
    write := fun p t (w, l) =>
      match files.write p t w with
      | .ok u w => .ok u (w, l ++ [⟨p, t⟩])
      | .error e w => .error e (w, l) }

/-- Every store whose writes succeed can keep a log. -/
theorem Files.keeps_logged {files : FileStore σ} (hw : ∀ p t w, ∃ w', files.write p t w = .ok () w')
    (hd : ∀ p w, ∃ w', files.createDirs p w = .ok () w') : Files.Keeps files.logged Prod.snd where
  write p t w := by
    obtain ⟨w', hw'⟩ := hw p t w.1
    refine ⟨(w', w.2 ++ [⟨p, t⟩]), ?_, rfl⟩
    simp only [FileStore.logged, hw']
  createDirs p w := by
    obtain ⟨w', hw'⟩ := hd p w.1
    refine ⟨(w', w.2), ?_, rfl⟩
    simp only [FileStore.logged, FileStore.zoom, FileStore.zoom.inFirst, hw']

/-- Work that succeeds on every bench with the result `a` and writes the files `l`. -/
def Writes (log : σ → List OutputFile) (op : WorkM σ α) (a : α) (l : List OutputFile) : Prop :=
  ∀ b, ∃ b', op b = .ok a b' ∧ log b'.world = log b.world ++ l

namespace Writes

theorem pure (a : α) : Writes log (Pure.pure a) a [] := fun b => ⟨b, rfl, by rw [List.append_nil]⟩

theorem bind {op : WorkM σ α} {k : α → WorkM σ β} {a : α} {x : β} {l l' : List OutputFile}
    (h : Writes log op a l) (hk : Writes log (k a) x l') : Writes log (op >>= k) x (l ++ l') := by
  intro b
  obtain ⟨b', hb', hl⟩ := h b
  obtain ⟨b'', hb'', hl'⟩ := hk b'
  refine ⟨b'', ?_, by rw [hl', hl, List.append_assoc]⟩
  show EStateM.bind op k b = _
  rw [EStateM.bind, hb']
  exact hb''

/-- Work without writes in front. -/
theorem andThen {op : WorkM σ α} {k : α → WorkM σ β} {a : α} {x : β} {l : List OutputFile}
    (h : Writes log op a []) (hk : Writes log (k a) x l) : Writes log (op >>= k) x l := h.bind hk

/-- Work without writes behind. -/
theorem followedBy {op : WorkM σ α} {k : α → WorkM σ β} {a : α} {x : β} {l : List OutputFile}
    (h : Writes log op a l) (hk : Writes log (k a) x []) : Writes log (op >>= k) x l := by
  rw [← List.append_nil l]
  exact h.bind hk

/-- Work whose result is only looked at. -/
theorem thenPure {op : WorkM σ α} {f : α → β} {a : α} {l : List OutputFile} (h : Writes log op a l) :
    Writes log (op >>= fun x => Pure.pure (f x)) (f a) l := h.followedBy (Writes.pure (f a))

theorem report (e : Event) : Writes log (WorkM.report e) () [] :=
  fun b => ⟨_, rfl, (List.append_nil (log b.world)).symm⟩

theorem reportAll (es : List Event) : Writes log (WorkM.reportAll es) () [] :=
  fun b => ⟨_, rfl, (List.append_nil (log b.world)).symm⟩

theorem phase (name : Text) : Writes log (WorkM.phase name) () [] := report _

theorem ofExcept (a : α) : Writes log (WorkM.ofExcept (.ok a)) a [] := Writes.pure a

/-- Work that looks at the world, if it does the same in every world. -/
theorem world {k : σ → WorkM σ α} {a : α} {l : List OutputFile} (h : ∀ w, Writes log (k w) a l) :
    Writes log (WorkM.world >>= k) a l := fun b => h b.world b

theorem write {files : FileStore σ} (h : Files.Keeps files log) (p : Path) (t : Text) :
    Writes log (WorkM.files (files.write p t)) () [⟨p, t⟩] := by
  intro b
  obtain ⟨w, hw, hl⟩ := h.write p t b.world
  exact ⟨{ b with world := w }, by simp only [WorkM.files, hw], hl⟩

theorem createDirs {files : FileStore σ} (h : Files.Keeps files log) (p : Path) :
    Writes log (WorkM.files (files.createDirs p)) () [] := by
  intro b
  obtain ⟨w, hw, hl⟩ := h.createDirs p b.world
  exact ⟨{ b with world := w }, by simp only [WorkM.files, hw], by rw [List.append_nil]; exact hl⟩

/-- Independent tasks: the results and the writes of all of them, in order. -/
theorem runAll {task : α → WorkM σ β} {f : α → β} {l : α → List OutputFile}
    (h : ∀ a, Writes log (task a) (f a) (l a)) (as : List α) :
    Writes log (WorkM.runAll task as) (as.map f) (as.flatMap l) := by
  induction as with
  | nil => exact Writes.pure []
  | cons a as ih =>
      intro b
      obtain ⟨b', hb', hl⟩ := h a b
      obtain ⟨b'', hb'', hl'⟩ := ih b'
      refine ⟨b'', ?_, by rw [hl', hl, List.append_assoc]; rfl⟩
      simp only [WorkM.runAll, hb', hb'', List.map_cons]

end Writes

namespace Writer

variable {w : Writer σ}

/-- The file that is written for one that is given to the writer, if one is. -/
def written? (w : Writer σ) (f : OutputFile) : Option OutputFile :=
  match (w.hooks.beforeWrite f).apply f with
  | none => none
  | some f =>
    if w.allows f.path.normalize then some { f with path := f.path.normalize } else none

theorem writes_put (h : Files.Keeps w.files log) (f : OutputFile) : Writes log (w.put f) () [f] := by
  have hwrite : Writes log (do
      WorkM.files (w.files.write f.path f.content)
      if w.detailed then WorkM.report (.fileWritten f.path)) () ([f] ++ []) := by
    refine (Writes.write h _ _).bind ?_
    split
    · exact .report _
    · exact .pure ()
  refine Writes.world fun world => ?_
  by_cases hd : (!w.files.isThere world f.path.parentDir) = true
  · rw [if_pos hd]
    exact (Writes.createDirs h _).andThen hwrite
  · rw [if_neg hd]
    exact hwrite

theorem writes_write (h : Files.Keeps w.files log) (f : OutputFile) :
    Writes log (w.write f) (w.written? f) (w.written? f).toList := by
  unfold write written?
  cases (w.hooks.beforeWrite f).apply f with
  | none => exact .pure none
  | some f =>
      dsimp only
      by_cases ha : w.allows f.path.normalize = true
      · rw [if_pos ha, if_pos ha]
        exact (writes_put h _).thenPure
      · rw [if_neg ha, if_neg ha]
        exact (Writes.report _).thenPure

/-- The file that a recorded output becomes, if one is written. -/
def output? (w : Writer σ) (layout : Layout) (o : OutputFile) : Option OutputFile :=
  w.written? (layout.prepare o.path o.content).1

/-- All recorded outputs are written in order. -/
theorem writes_writeOutputs (h : Files.Keeps w.files log) (layout : Layout) (os : List OutputFile) :
    Writes log (w.writeOutputs layout os) (byPlace (os.map (w.output? layout)))
      (os.flatMap fun o => (w.output? layout o).toList) := by
  have htask (o : OutputFile) :
      Writes log (w.writeOutput layout o) (w.output? layout o) (w.output? layout o).toList := by
    refine (Writes.reportAll _).andThen ?_
    exact writes_write h _
  exact (Writes.runAll htask os).thenPure

/-! ## Copies -/

/-- The copy of a file in a directory, if one is written. -/
def copy? (w : Writer σ) (f : OutputFile) (dir : Path) : Option OutputFile :=
  let target := dir.resolve (w.outDir.relative f.path)
  { w with outDir := dir }.written? ⟨target, (copyContent f target).1⟩

/-- The copies of a file in some directories. -/
def copies (w : Writer σ) (dirs : List Path) (f : OutputFile) : List OutputFile :=
  dirs.flatMap fun dir => (w.copy? f dir).toList

theorem writes_copyTo (h : Files.Keeps w.files log) (f : OutputFile) (dir : Path) :
    Writes log (w.copyTo f dir) ((w.copy? f dir).map (·.path)) (w.copy? f dir).toList := by
  have hwrite (g : OutputFile) := writes_write (w := { w with outDir := dir }) h g
  refine (Writes.reportAll _).andThen ?_
  exact (hwrite _).thenPure

theorem writes_copyToAll (h : Files.Keeps w.files log) (f : OutputFile) (dirs : List Path) :
    Writes log (w.copyToAll f dirs) ((w.copies dirs f).map (·.path)) (w.copies dirs f) := by
  induction dirs with
  | nil => exact .pure []
  | cons dir dirs ih =>
      have hpaths : (w.copies (dir :: dirs) f).map (·.path)
          = ((w.copy? f dir).map (·.path)).toList ++ (w.copies dirs f).map (·.path) := by
        rw [copies, List.flatMap_cons, List.map_append]
        cases w.copy? f dir <;> rfl
      rw [hpaths]
      refine (writes_copyTo h f dir).bind ?_
      exact ih.thenPure

/-- The files are copied one after the other, each to all directories. -/
theorem writes_replicate (h : Files.Keeps w.files log) (emitted : PathMap Text) (dirs : List Path) :
    ∃ paths, Writes log (w.replicate emitted dirs) paths
      (emitted.entries.flatMap fun e => w.copies dirs ⟨e.1, e.2⟩) := by
  unfold replicate
  cases dirs with
  | nil =>
      have hnone : (emitted.entries.flatMap fun e => w.copies [] ⟨e.1, e.2⟩) = [] :=
        List.flatMap_eq_nil_iff.mpr fun _ _ => rfl
      rw [hnone]
      exact ⟨[], .pure []⟩
  | cons dir dirs =>
      have htask (e : Path × Text) := writes_copyToAll h ⟨e.1, e.2⟩ (dir :: dirs)
      exact ⟨_, (Writes.runAll htask emitted.entries).thenPure⟩

end Writer

end Typings
