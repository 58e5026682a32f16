import Typings.Proofs.Files.Clearing
import Typings.Proofs.Rollup.Results

/-!
# `Cleanup` — what a rollup in memory leaves, and when it ends without an error

A rollup asks the tool about one target after the other (`Rollup.ask`), and only then removes anything
(`Rollup.cleanUp`).  The tool may put files only where its results belong, so while it is asked no file goes,
and nothing comes up in the output directory but results.  That is enough for the cleanup to succeed: what
is removed is still there, and no directory that is to go is occupied.

* `FileStore.prune_zoom`: clearing directories in a part of the state.
* `RollupEngine.WritesResult`: a tool that writes its results and nothing else.
* `Rollup.ask`, `Rollup.cleanUp`: the two halves; `outcome_run`.
* `Rollup.Asked`: the files after the first half, successful or not.
* `Rollup.cleanup_exact`: the whole rollup.
-/

namespace Typings

open Files (FileStore Memory StoreM)

/-! ## Clearing directories in a part of the state -/

namespace Files.FileStore

variable {σ τ α β : Type}

/-- The operation on a pair does on its first part what the other does, and leaves the second as it is. -/
def OnFirst (op' : StoreM (σ × τ) α) (op : StoreM σ α) : Prop :=
  ∀ w, outcome (op' w) = ((outcome (op w.1)).1, ((outcome (op w.1)).2, w.2))

theorem OnFirst.pure (a : α) : OnFirst (Pure.pure a : StoreM (σ × τ) α) (Pure.pure a) := fun _ => rfl

theorem OnFirst.bind {op' : StoreM (σ × τ) α} {op : StoreM σ α} {k' : α → StoreM (σ × τ) β}
    {k : α → StoreM σ β} (h : OnFirst op' op) (hk : ∀ a, OnFirst (k' a) (k a)) :
    OnFirst (op' >>= k') (op >>= k) := by
  intro w
  rw [outcome_bind, outcome_bind, h w]
  cases outcome (op w.1) with
  | mk r w₁ =>
      cases r with
      | ok a => exact hk a (w₁, w.2)
      | error e => rfl

theorem OnFirst.pruneChildren {prune' : Path → StoreM (σ × τ) Bool} {prune : Path → StoreM σ Bool}
    (h : ∀ p, OnFirst (prune' p) (prune p)) (children : List DirEntry) :
    OnFirst (FileStore.pruneChildren prune' children) (FileStore.pruneChildren prune children) := by
  induction children with
  | nil => exact .pure true
  | cons child rest ih =>
      rw [FileStore.pruneChildren, FileStore.pruneChildren]
      split
      · exact (h child.path).bind fun _ => ih.bind fun _ => .pure _
      · exact (OnFirst.pure false).bind fun _ => ih.bind fun _ => .pure _

theorem onFirst_pruneWithin (s : FileStore σ) (fuel : Nat) (dir : Path) :
    OnFirst ((s.zoom : FileStore (σ × τ)).pruneWithin fuel dir) (s.pruneWithin fuel dir) := by
  induction fuel generalizing dir with
  | zero => exact .pure false
  | succ fuel ih =>
      intro w
      rw [pruneWithin, pruneWithin, outcome_bind_ok rfl, outcome_bind_ok rfl]
      have hthere : (s.zoom : FileStore (σ × τ)).isThere w dir = s.isThere w.1 dir := rfl
      have hlist : (s.zoom : FileStore (σ × τ)).list w dir = s.list w.1 dir := rfl
      rw [hthere, hlist]
      cases s.isThere w.1 dir with
      | false => rfl
      | true =>
          cases s.list w.1 dir with
          | error e => rfl
          | ok children =>
              refine (OnFirst.pruneChildren ih children).bind (fun emptied => ?_) w
              cases emptied with
              | true => exact .bind (outcome_inFirst (s.removeDir dir)) fun _ => .pure true
              | false => exact .pure false

/-- Clearing directories in a part of the state leaves the other part as it is. -/
theorem outcome_prune_zoom (s : FileStore σ) (dir : Path) (w : σ × τ) :
    outcome ((s.zoom : FileStore (σ × τ)).prune dir w)
      = ((outcome (s.prune dir w.1)).1, ((outcome (s.prune dir w.1)).2, w.2)) :=
  onFirst_pruneWithin s (s.depth w.1 + 1) dir w

end Files.FileStore

/-! ## Tools that write their results -/

variable {σ τ : Type}

/-- Whatever the tool does to the files in memory, it does by writing to the place of the result, and when it
    succeeds the result is there. -/
structure RollupEngine.WritesResult (e : RollupEngine (Memory × τ)) : Prop where
  writes : ∀ q w, ∃ texts : List Text,
    (outcome (e.run q w)).2.1 = texts.foldl (fun m t => m.insert q.outputPath t) w.1
  result : ∀ {q w w'}, outcome (e.run q w) = (.ok (), w') → w'.1.files.contains q.outputPath = true

namespace Rollup

/-! ## The two halves of a rollup -/

section Halves

variable (r : Rollup σ)

/-- The tool is asked about some targets in turn, until it fails. -/
def askAll (lib : Option Path) : List Path → WorkM σ Unit
  | [] => pure ()
  | target :: rest => do
    let request := r.request lib (← r.packageJson) target
    WorkM.onWorld (r.engine.run request)
    askAll lib rest

/-- The first half of a rollup: the tool is asked about all targets. -/
def ask (entries : List Entry) (types : Path) : WorkM σ Unit := do
  WorkM.report .rollupStarted
  let lib := r.libFolder (← WorkM.world)
  r.askAll lib (r.targets entries types)

/-- What is known after all targets have been rolled up: targets and results are taken out. -/
def leftOver (emitted : PathMap Text) (targets : List Path) : PathMap Text :=
  targets.foldl (fun m t => (m.erase t).erase (r.resultOf t)) emitted

/-- The second half of a rollup: what is left over goes, and the results are read. -/
def cleanUp (stale : PathMap Text) (outputs : List Path) : WorkM σ (List Path × PathMap Text) := do
  let _ ← WorkM.runAll (fun p => WorkM.files (r.files.remove p)) stale.keys
  let _ ← WorkM.files (r.files.prune r.outDir)
  let texts ← WorkM.ofExcept (r.readAll (← WorkM.world) outputs)
  return (outputs, PathMap.ofList texts)

end Halves

variable {r : Rollup σ}

theorem outcome_runTargets (lib : Option Path) (emitted : PathMap Text) (targets : List Path)
    (b : Workbench σ) :
    outcome (r.runTargets lib emitted targets b)
      = ((outcome (r.askAll lib targets b)).1.map fun _ => (targets.map r.resultOf, r.leftOver emitted targets),
          (outcome (r.askAll lib targets b)).2) := by
  induction targets generalizing emitted b with
  | nil => rfl
  | cons target rest ih =>
      rw [runTargets, askAll, outcome_bind, outcome_bind]
      cases outcome (r.packageJson b) with
      | mk package b₁ =>
          cases package with
          | error e => rfl
          | ok package =>
              dsimp only
              rw [outcome_bind, outcome_bind]
              cases outcome (WorkM.onWorld (r.engine.run (r.request lib package target)) b₁) with
              | mk done b₂ =>
                  cases done with
                  | error e => rfl
                  | ok _ =>
                      dsimp only
                      rw [outcome_bind, ih]
                      cases outcome (r.askAll lib rest b₂) with
                      | mk asked b₃ =>
                          cases asked with
                          | error e => rfl
                          | ok _ => rfl

/-- A rollup is its first half, and if that succeeds its second half. -/
theorem outcome_run (entries : List Entry) (types : Path) (emitted : PathMap Text) (b : Workbench σ) :
    outcome (r.run entries types emitted b) =
      match outcome (r.ask entries types b) with
      | (.error e, b₁) => (.error e, b₁)
      | (.ok (), b₁) =>
        outcome (r.cleanUp (r.leftOver emitted (r.targets entries types))
          ((r.targets entries types).map r.resultOf) b₁) := by
  have hask : outcome (r.ask entries types b) = outcome (r.askAll (r.libFolder b.world)
      (r.targets entries types) { b with events := b.events ++ [.rollupStarted] }) := rfl
  rw [hask, run, outcome_bind_ok rfl, outcome_bind_ok rfl, outcome_bind, outcome_runTargets]
  cases outcome (r.askAll _ (r.targets entries types) _) with
  | mk asked b₁ =>
      cases asked with
      | error e => rfl
      | ok _ => rfl

theorem contains_leftOver (emitted : PathMap Text) (targets : List Path) (p : Path) :
    (r.leftOver emitted targets).contains p
      = (emitted.contains p && !targets.any (·.same p) && !targets.any fun t => (r.resultOf t).same p) := by
  induction targets generalizing emitted with
  | nil => simp [leftOver]
  | cons t rest ih =>
      rw [leftOver, List.foldl_cons, ← leftOver, ih, PathMap.contains_erase, PathMap.contains_erase]
      simp only [List.any_cons, Bool.not_or]
      ac_rfl

theorem ordered_leftOver {emitted : PathMap Text} (h : emitted.Ordered) (targets : List Path) :
    (r.leftOver emitted targets).Ordered := by
  induction targets generalizing emitted with
  | nil => exact h
  | cons t rest ih =>
      rw [leftOver, List.foldl_cons, ← leftOver]
      exact ih ((h.erase t).erase (r.resultOf t))

end Rollup

/-! ## Files while the tool is asked -/

namespace Files.Memory

variable {m m₁ : Memory} {places : List Path}

/-- Files have been written to some of the places, and nothing else has been done. -/
structure WrittenAt (places : List Path) (m m₁ : Memory) : Prop where
  sound : m₁.Sound
  files : ∀ p, m.files.contains p = true → m₁.files.contains p = true
  others : ∀ p, (∀ o ∈ places, o.same p = false) → m₁.files.get? p = m.files.get? p
  dirs : ∀ q, m₁.dirs.contains q = true → m.dirs.contains q = true ∨ ∃ o ∈ places, q.Above o

theorem WrittenAt.refl (h : m.Sound) (places : List Path) : WrittenAt places m m :=
  ⟨h, fun _ hp => hp, fun _ _ => rfl, fun _ hq => .inl hq⟩

theorem WrittenAt.insert (h : WrittenAt places m m₁) {o : Path} (ho : o ∈ places) (t : Text) :
    WrittenAt places m (m₁.insert o t) where
  sound := h.sound.insert o t
  files p hp := by
    rw [Memory.insert, PathMap.contains_insert, h.files p hp, Bool.or_true]
  others p hp := by
    rw [Memory.insert, PathMap.get?_insert, hp o ho, if_neg Bool.false_ne_true, h.others p hp]
  dirs q hq := by
    rw [contains_dirs_insert h.sound.closed, Bool.or_eq_true, decide_eq_true_iff] at hq
    exact hq.elim (h.dirs q) fun habove => .inr ⟨o, ho, habove⟩

theorem WrittenAt.foldl (h : WrittenAt places m m₁) {o : Path} (ho : o ∈ places) (texts : List Text) :
    WrittenAt places m (texts.foldl (fun m t => m.insert o t) m₁) := by
  induction texts generalizing m₁ with
  | nil => exact h
  | cons t rest ih => exact ih (h.insert ho t)

end Files.Memory

namespace Rollup

open Files.Memory (WrittenAt)

variable {r : Rollup (Memory × τ)} {lib : Option Path} {targets places : List Path} {m : Memory}

theorem outcome_packageJson (r : Rollup σ) (b : Workbench σ) :
    ∃ package b₁, outcome (r.packageJson b) = (.ok package, b₁) ∧ b₁.world = b.world :=
  ⟨_, _, rfl, rfl⟩

/-- **While the tool is asked**, whether it fails or not, files are written to the places of results, and no
    file goes. -/
theorem writtenAt_askAll (htool : r.engine.WritesResult) {b : Workbench (Memory × τ)}
    (hplaces : ∀ t ∈ targets, r.resultOf t ∈ places) (h : WrittenAt places m b.world.1) :
    WrittenAt places m (outcome (r.askAll lib targets b)).2.world.1 := by
  induction targets generalizing b with
  | nil => exact h
  | cons target rest ih =>
      obtain ⟨hplace, hrest⟩ := List.forall_mem_cons.mp hplaces
      obtain ⟨package, b₁, hpackage, hworld⟩ := outcome_packageJson r b
      obtain ⟨texts, htexts⟩ := htool.writes (r.request lib package target) b.world
      have hnext : WrittenAt places m
          (outcome (r.engine.run (r.request lib package target) b.world)).2.1 := by
        rw [htexts]
        exact h.foldl hplace texts
      rw [askAll, outcome_bind_ok hpackage, outcome_bind, outcome_onWorld, hworld]
      cases hrun : (outcome (r.engine.run (r.request lib package target) b.world)).1 with
      | error e => exact hnext
      | ok _ => exact ih hrest hnext

/-- When the tool has succeeded for all targets, all results are there. -/
theorem contains_askAll (htool : r.engine.WritesResult) {b b' : Workbench (Memory × τ)}
    (hsound : b.world.1.Sound) (h : outcome (r.askAll lib targets b) = (.ok (), b')) :
    ∀ t ∈ targets, b'.world.1.files.contains (r.resultOf t) = true := by
  induction targets generalizing b with
  | nil => simp
  | cons target rest ih =>
      obtain ⟨package, b₁, hpackage, hworld⟩ := outcome_packageJson r b
      rw [askAll, outcome_bind_ok hpackage] at h
      obtain ⟨_, b₂, hrun, hrest⟩ := exists_of_outcome_bind h
      rw [outcome_onWorld, hworld] at hrun
      obtain ⟨hok, rfl⟩ := Prod.mk.inj hrun
      have hdone : outcome (r.engine.run (r.request lib package target) b.world)
          = (.ok (), (outcome (r.engine.run (r.request lib package target) b.world)).2) := Prod.ext hok rfl
      have hsound₂ : (outcome (r.engine.run (r.request lib package target) b.world)).2.1.Sound := by
        obtain ⟨texts, htexts⟩ := htool.writes (r.request lib package target) b.world
        rw [htexts]
        exact ((WrittenAt.refl hsound [_]).foldl List.mem_cons_self texts).sound
      refine List.forall_mem_cons.mpr ⟨?_, ih hsound₂ hrest⟩
      -- The other targets leave the result where it is.
      let b₂ : Workbench (Memory × τ) :=
        { b₁ with world := (outcome (r.engine.run (r.request lib package target) b.world)).2 }
      have hlater : WrittenAt (rest.map r.resultOf) b₂.world.1 (outcome (r.askAll lib rest b₂)).2.world.1 :=
        writtenAt_askAll htool (fun t ht => List.mem_map_of_mem ht) (.refl hsound₂ _)
      have hlast := hlater.files _ (htool.result hdone)
      rw [hrest] at hlast
      exact hlast

/-! ## The cleanup -/

/-- A memory without one of its files. -/
def without (m : Memory) (p : Path) : Memory := { m with files := m.files.erase p }

theorem outcome_remove {p : Path} {b : Workbench (Memory × τ)} (hp : b.world.1.files.contains p = true) :
    outcome (WorkM.files ((Memory.store.zoom : FileStore (Memory × τ)).remove p) b)
      = (.ok (), { b with world := (without b.world.1 p, b.world.2) }) := by
  have hupdate : outcome (Memory.store.remove p b.world.1) = (.ok (), without b.world.1 p) := by
    show outcome (Memory.update (fun m => m.removeFile p) b.world.1) = _
    rw [Memory.update, Memory.removeFile, if_pos hp]
    rfl
  have hzoom : outcome ((Memory.store.zoom : FileStore (Memory × τ)).remove p b.world)
      = (.ok (), (without b.world.1 p, b.world.2)) := by
    show outcome (FileStore.zoom.inFirst (Memory.store.remove p) b.world) = _
    rw [FileStore.outcome_inFirst, hupdate]
  rw [FileStore.outcome_files, hzoom]
  rfl

/-- Files that are there, at different places, are removed without an error. -/
theorem outcome_removeAll {ps : List Path} {b : Workbench (Memory × τ)} (hm : b.world.1.Sound)
    (hthere : ∀ p ∈ ps, b.world.1.files.contains p = true)
    (hdistinct : ps.Pairwise fun p q => p.same q = false) :
    ∃ done m', outcome (WorkM.runAll
          (fun p => WorkM.files ((Memory.store.zoom : FileStore (Memory × τ)).remove p)) ps b)
        = (.ok done, { b with world := (m', b.world.2) }) ∧
      m'.Sound ∧ m'.dirs = b.world.1.dirs ∧
      ∀ q, m'.files.get? q = if ps.any (·.same q) then none else b.world.1.files.get? q := by
  induction ps generalizing b with
  | nil => exact ⟨[], b.world.1, rfl, hm, rfl, fun _ => rfl⟩
  | cons p rest ih =>
      obtain ⟨hp, hrest⟩ := List.forall_mem_cons.mp hthere
      obtain ⟨hapart, hdistinct⟩ := List.pairwise_cons.mp hdistinct
      have hleft : ∀ q ∈ rest, (without b.world.1 p).files.contains q = true := by
        intro q hq
        show (b.world.1.files.erase p).contains q = true
        rw [PathMap.contains_erase, hapart q hq, hrest q hq]
        rfl
      obtain ⟨done, m', hrun, hsound, hdirs, hget⟩ := ih
        (b := { b with world := (without b.world.1 p, b.world.2) })
        (hm.removeFile (p := p) (if_pos hp)) hleft hdistinct
      refine ⟨() :: done, m', ?_, hsound, hdirs, fun q => ?_⟩
      · rw [Adds.outcome_runAll_cons, outcome_remove hp]
        dsimp only
        rw [hrun]
        rfl
      · rw [hget]
        show (if _ then none else (b.world.1.files.erase p).get? q) = _
        rw [PathMap.get?_erase, List.any_cons]
        cases p.same q <;> simp

theorem exists_readAll {r : Rollup σ} {world : σ} {ps : List Path}
    (h : ∀ p ∈ ps, (r.files.text? world p).isSome = true) : ∃ texts, r.readAll world ps = .ok texts := by
  induction ps with
  | nil => exact ⟨[], rfl⟩
  | cons p rest ih =>
      obtain ⟨hp, hrest⟩ := List.forall_mem_cons.mp h
      obtain ⟨texts, htexts⟩ := ih hrest
      rw [readAll, htexts]
      unfold FileStore.text? at hp
      cases hread : r.files.read world p with
      | ok t => exact ⟨(p, t) :: texts, rfl⟩
      | error e =>
          rw [hread] at hp
          exact absurd hp Bool.false_ne_true

/-- What a cleanup needs: what is left over is there, the results are there and not left over, and the output
    directory can be cleared. -/
structure Ready (r : Rollup (Memory × τ)) (stale : PathMap Text) (outputs : List Path) (m : Memory) :
    Prop where
  sound : m.Sound
  distinct : stale.Ordered
  there : ∀ p, stale.contains p = true → m.files.contains p = true
  results : ∀ o ∈ outputs, m.files.contains o = true ∧ stale.contains o = false
  file : m.files.contains r.outDir = false
  apart : ∀ p : Path, p.startsWith r.outDir = true → m.files.contains p = true → m.dirs.contains p = false

/-- **A cleanup** that is ready succeeds. -/
theorem outcome_cleanUp (hfiles : r.files = Memory.store.zoom) (hd : r.outDir.isAbsolute = true)
    {stale : PathMap Text} {outputs : List Path} {b : Workbench (Memory × τ)}
    (h : r.Ready stale outputs b.world.1) :
    ∃ kept b', outcome (r.cleanUp stale outputs b) = (.ok (outputs, kept), b') ∧
      (∀ q, b'.world.1.files.get? q = if stale.contains q then none else b.world.1.files.get? q) ∧
      (∀ q, kept.get? q = if outputs.any (·.same q) then b'.world.1.files.get? q else none) ∧
      ∀ q, b'.world.1.dirs.contains q = true → q.startsWith r.outDir = true →
        ∃ f, b'.world.1.files.contains f = true ∧ q.Above f := by
  have hroot := Path.components_ne_nil hd
  -- First what is left over is removed, which leaves `m₁`, then directories are pruned, then the results are
  -- read back.
  obtain ⟨done, m₁, hremove, hsound, hdirs, hget⟩ := outcome_removeAll (b := b) h.sound
    (fun p hp => h.there p (PathMap.contains_of_mem_keys hp)) h.distinct.pairwise_keys
  have hget (q : Path) : m₁.files.get? q = if stale.contains q then none else b.world.1.files.get? q := by
    rw [hget, PathMap.any_keys_same]
  have hcontains {q : Path} (hq : m₁.files.contains q = true) : b.world.1.files.contains q = true := by
    rw [PathMap.contains_eq, hget] at hq
    rw [PathMap.contains_eq]
    split at hq
    · exact nomatch hq
    · exact hq
  have happart (p : Path) (hp : p.startsWith r.outDir = true) (hf : m₁.files.contains p = true) :
      m₁.dirs.contains p = false := by
    rw [hdirs]
    exact h.apart p hp (hcontains hf)
  have hprunable : m₁.Prunable (Memory.store.depth m₁ + 1) r.outDir := by
    refine ⟨hsound, hroot, Bool.eq_false_iff.mpr fun hf => ?_, happart, fun q hq _ => ?_⟩
    · exact nomatch h.file.symm.trans (hcontains hf)
    · have hle := Memory.length_le_depth hq
      omega
  have hprune : outcome (WorkM.files (r.files.prune r.outDir) { b with world := (m₁, b.world.2) })
      = (.ok (m₁.dirs.contains r.outDir && !m₁.holds r.outDir),
          { b with world := (m₁.clear [r.outDir], b.world.2) }) := by
    have hrun : outcome (Memory.store.prune r.outDir m₁) = _ := Memory.outcome_pruneWithin hprunable
    rw [hfiles, FileStore.outcome_files, FileStore.outcome_prune_zoom, hrun]
    rfl
  -- A result is there before the cleanup and is not left over, and pruning keeps files.
  obtain ⟨texts, htexts⟩ : ∃ texts, r.readAll (m₁.clear [r.outDir], b.world.2) outputs = .ok texts := by
    refine exists_readAll fun o ho => ?_
    obtain ⟨hthere, hkept⟩ := h.results o ho
    rw [hfiles]
    show (Memory.store.text? (m₁.clear [r.outDir]) o).isSome = true
    rw [Memory.text?_store]
    show (m₁.files.get? o).isSome = true
    rw [hget, hkept, if_neg Bool.false_ne_true, ← PathMap.contains_eq, hthere]
  obtain ⟨hpaths, hread⟩ := readAll_ok htexts
  refine ⟨PathMap.ofList texts, { b with world := (m₁.clear [r.outDir], b.world.2) }, ?_, hget, fun q => ?_,
    fun q hq hin => ?_⟩
  · rw [cleanUp, hfiles, outcome_bind_ok hremove, ← hfiles, outcome_bind_ok hprune, outcome_bind_ok rfl,
      htexts]
    rfl
  · have hplace (e : Path × Text) (he : e ∈ texts) : m₁.files.get? e.1 = some e.2 := by
      have htext := hread e he
      rw [hfiles] at htext
      exact (Memory.text?_store (m₁.clear [r.outDir]) e.1).symm.trans htext
    rw [PathMap.get?_ofList (f := m₁.files.get?) (fun hs => PathMap.get?_congr hs _) hplace, ← hpaths,
      List.any_map]
    rfl
  · rw [Memory.contains_clear, Memory.stays, List.any_cons, List.any_nil, Bool.or_false, hin, Bool.not_true,
      Bool.or_false, Bool.and_eq_true] at hq
    have hne := Path.components_ne_nil_of_startsWith hroot hin
    have hplain : m₁.files.contains q = false :=
      Bool.eq_false_iff.mpr fun hf => nomatch (happart q hin hf).symm.trans hq.2
    exact (Memory.holds_iff_above hne hplain).mp hq.1

/-! ## The whole rollup -/

/-- A result is put directly in the output directory. -/
theorem components_resultOf {r : Rollup σ} {entries : List Entry} {types : Path}
    (htypes : types.fileName?.isSome = true) {t : Path} (ht : t ∈ r.targets entries types) :
    ∃ c, (r.resultOf t).components = r.outDir.components ++ [c] := by
  have hname : ∃ n, t.fileName? = some n := by
    by_cases hmore : 1 < entries.length
    · rw [targets_several hmore] at ht
      obtain ⟨e, -, rfl⟩ := List.mem_map.mp ht
      exact fileName?_target r.outDir e
    · have htargets : r.targets entries types = [types] := if_neg hmore
      rw [htargets, List.mem_singleton] at ht
      exact Option.isSome_iff_exists.mp (ht ▸ htypes)
  obtain ⟨n, hn⟩ := hname
  have hvalid := ScriptName.validName_declarationName (Path.validName_of_fileName? hn)
  exact ⟨_, by rw [resultOf_eq hn, Path.components_join_name _ hvalid]⟩

/-- After the tool has succeeded for all targets, the cleanup is ready. -/
theorem ready_of_asked {m₁ : Memory} {emitted : PathMap Text} (h : WrittenAt (targets.map r.resultOf) m m₁)
    (hapart : m.Apart) (hordered : emitted.Ordered)
    (hemitted : ∀ p, emitted.contains p = true → m.files.contains p = true)
    (hout : m.files.contains r.outDir = false)
    (hfree : ∀ t ∈ targets, m.dirs.contains (r.resultOf t) = false)
    (hplaces : ∀ t ∈ targets, ∃ c, (r.resultOf t).components = r.outDir.components ++ [c])
    (hresults : ∀ t ∈ targets, m₁.files.contains (r.resultOf t) = true) :
    r.Ready (r.leftOver emitted targets) (targets.map r.resultOf) m₁ := by
  have hsame {o p : Path} (hs : o.same p = true) {k : PathMap Text} (ho : k.contains o = false) :
      k.contains p = false := by
    rwa [← PathMap.contains_congr hs]
  have hfile : m₁.files.contains r.outDir = false := by
    rw [PathMap.contains_eq, h.others, ← PathMap.contains_eq, hout]
    rintro o ho
    obtain ⟨t, ht, rfl⟩ := List.mem_map.mp ho
    obtain ⟨c, hc⟩ := hplaces t ht
    rw [Bool.eq_false_iff, Ne, Path.same_iff, hc]
    simp
  constructor
  case sound => exact h.sound
  case distinct => exact ordered_leftOver hordered targets
  case there =>
    intro p hp
    rw [contains_leftOver, Bool.and_eq_true, Bool.and_eq_true] at hp
    exact h.files p (hemitted p hp.1.1)
  case results =>
    intro o ho
    obtain ⟨t, ht, rfl⟩ := List.mem_map.mp ho
    have hany : (targets.any fun u => (r.resultOf u).same (r.resultOf t)) = true :=
      List.any_eq_true.mpr ⟨t, ht, Path.same_self _⟩
    refine ⟨hresults t ht, ?_⟩
    rw [contains_leftOver, hany, Bool.not_true, Bool.and_false]
  case file => exact hfile
  case apart =>
    intro p hin hp
    refine Bool.eq_false_iff.mpr fun hdir => ?_
    rcases h.dirs p hdir with hold | ⟨o, ho, habove⟩
    · by_cases hresult : ∃ t ∈ targets, (r.resultOf t).same p = true
      · obtain ⟨t, ht, hs⟩ := hresult
        rw [← PathMap.contains_congr hs, hfree t ht] at hold
        exact nomatch hold
      · have hplain : ∀ o ∈ targets.map r.resultOf, o.same p = false := by
          intro o ho
          obtain ⟨t, ht, rfl⟩ := List.mem_map.mp ho
          exact Bool.eq_false_iff.mpr fun hs => hresult ⟨t, ht, hs⟩
        rw [PathMap.contains_eq, h.others p hplain, ← PathMap.contains_eq] at hp
        exact nomatch (hapart p hp).symm.trans hold
    · -- What is above a result and in the output directory is the output directory.
      obtain ⟨t, ht, rfl⟩ := List.mem_map.mp ho
      obtain ⟨c, hc⟩ := hplaces t ht
      have hpre := habove.2.1
      rw [hc, List.prefix_concat_iff] at hpre
      have hup := hpre.resolve_left fun he => habove.2.2 (he.trans hc.symm)
      have heq := hup.eq_of_length_le (Path.startsWith_iff_components.mp hin).length_le
      rw [PathMap.contains_congr (Path.same_iff.mpr heq), hfile] at hp
      exact nomatch hp

/-- What a rollup leaves of the files in memory, when `emitted` has been written before and `m₁` are the files
    after the tool has been asked. -/
structure Cleaned (r : Rollup (Memory × τ)) (targets : List Path) (emitted : PathMap Text)
    (m m₁ m' : Memory) (kept : PathMap Text) : Prop where
  /-- What had been written is gone if it is neither a target nor a result; no other file is. -/
  gone : ∀ p, m.files.contains p = true → (m'.files.contains p = false ↔ emitted.contains p = true ∧
    (∀ t ∈ targets, t.same p = false) ∧ ∀ t ∈ targets, (r.resultOf t).same p = false)
  /-- Places other than those of results, and of what has gone, are as they were. -/
  others : ∀ p, (∀ t ∈ targets, (r.resultOf t).same p = false) →
    (emitted.contains p = false ∨ ∃ t ∈ targets, t.same p = true) → m'.files.get? p = m.files.get? p
  results : ∀ t ∈ targets, ∃ text, m₁.files.get? (r.resultOf t) = some text ∧
    m'.files.get? (r.resultOf t) = some text
  /-- Exactly the results are known, with their texts. -/
  known : ∀ p, kept.get? p
    = if targets.any (fun t => (r.resultOf t).same p) then m'.files.get? p else none
  directories : ∀ q, m'.dirs.contains q = true → q.startsWith r.outDir = true →
    ∃ f, m'.files.contains f = true ∧ q.Above f

theorem cleaned_of_asked {m₁ m' : Memory} {emitted kept : PathMap Text}
    (h : WrittenAt (targets.map r.resultOf) m m₁)
    (hresults : ∀ t ∈ targets, m₁.files.contains (r.resultOf t) = true)
    (hget : ∀ q, m'.files.get? q
      = if (r.leftOver emitted targets).contains q then none else m₁.files.get? q)
    (hknown : ∀ q, kept.get? q = if (targets.map r.resultOf).any (·.same q) then m'.files.get? q else none)
    (hdirs : ∀ q, m'.dirs.contains q = true → q.startsWith r.outDir = true →
      ∃ f, m'.files.contains f = true ∧ q.Above f) :
    r.Cleaned targets emitted m m₁ m' kept := by
  have hleft (p : Path) : (r.leftOver emitted targets).contains p = true ↔ emitted.contains p = true ∧
      (∀ t ∈ targets, t.same p = false) ∧ ∀ t ∈ targets, (r.resultOf t).same p = false := by
    simp [contains_leftOver, and_assoc]
  constructor
  case gone =>
    intro p hp
    rw [PathMap.contains_eq, hget, ← hleft]
    have hthere := h.files p hp
    rw [PathMap.contains_eq] at hthere
    cases hstale : (r.leftOver emitted targets).contains p with
    | true => simp
    | false => simp [hthere]
  case others =>
    intro p hp hkept
    have hplain : ∀ o ∈ targets.map r.resultOf, o.same p = false := by
      intro o ho
      obtain ⟨t, ht, rfl⟩ := List.mem_map.mp ho
      exact hp t ht
    have hstays : ¬ (r.leftOver emitted targets).contains p = true := by
      rw [hleft]
      rintro ⟨hin, htarget, -⟩
      rcases hkept with hnot | ⟨t, ht, hs⟩
      · exact nomatch hnot.symm.trans hin
      · exact nomatch (htarget t ht).symm.trans hs
    rw [hget, if_neg hstays, h.others p hplain]
  case results =>
    intro t ht
    have hstays : ¬ (r.leftOver emitted targets).contains (r.resultOf t) = true := by
      rw [hleft]
      rintro ⟨-, -, hnone⟩
      exact nomatch (hnone t ht).symm.trans (Path.same_self _)
    have hthere := hresults t ht
    rw [PathMap.contains_eq, Option.isSome_iff_exists] at hthere
    obtain ⟨text, htext⟩ := hthere
    exact ⟨text, htext, by rw [hget, if_neg hstays, htext]⟩
  case known =>
    intro p
    rw [hknown, List.any_map]
    rfl
  case directories => exact hdirs

/-- **A rollup in memory** ends without an error unless the tool fails.  If the tool fails, so does the
    rollup, and no file is gone; otherwise exactly what is left over is gone. -/
theorem cleanup_exact (hfiles : r.files = Memory.store.zoom) (htool : r.engine.WritesResult)
    {entries : List Entry} {types : Path} (htypes : types.fileName?.isSome = true)
    (hd : r.outDir.isAbsolute = true) {emitted : PathMap Text} (hordered : emitted.Ordered)
    {b : Workbench (Memory × τ)} (hm : b.world.1.Reachable) (hapart : b.world.1.Apart)
    (hemitted : ∀ p, emitted.contains p = true → b.world.1.files.contains p = true)
    (hout : b.world.1.files.contains r.outDir = false)
    (hfree : ∀ t ∈ r.targets entries types, b.world.1.dirs.contains (r.resultOf t) = false) :
    (∀ e b₁, outcome (r.ask entries types b) = (.error e, b₁) →
        outcome (r.run entries types emitted b) = (.error e, b₁) ∧
          ∀ p, b.world.1.files.contains p = true → b₁.world.1.files.contains p = true) ∧
      ∀ b₁, outcome (r.ask entries types b) = (.ok (), b₁) →
        ∃ kept b', outcome (r.run entries types emitted b)
            = (.ok ((r.targets entries types).map r.resultOf, kept), b') ∧
          r.Cleaned (r.targets entries types) emitted b.world.1 b₁.world.1 b'.world.1 kept := by
  have hplaces : ∀ t ∈ r.targets entries types, r.resultOf t ∈ (r.targets entries types).map r.resultOf :=
    fun t ht => List.mem_map_of_mem ht
  have hasked : WrittenAt ((r.targets entries types).map r.resultOf) b.world.1
      (outcome (r.ask entries types b)).2.world.1 :=
    writtenAt_askAll htool (b := { b with events := b.events ++ [.rollupStarted] }) hplaces
      (.refl hm.sound _)
  rw [outcome_run]
  constructor
  · intro e b₁ hask
    rw [hask] at hasked ⊢
    exact ⟨rfl, hasked.files⟩
  · intro b₁ hask
    rw [hask] at hasked ⊢
    have hresults := contains_askAll htool (b := { b with events := b.events ++ [.rollupStarted] })
      hm.sound hask
    have hready := ready_of_asked hasked hapart hordered hemitted hout hfree
      (fun t ht => components_resultOf htypes ht) hresults
    obtain ⟨kept, b', hrun, hget, hknown, hdirs⟩ := outcome_cleanUp hfiles hd hready
    exact ⟨kept, b', hrun, cleaned_of_asked hasked hresults hget hknown hdirs⟩

end Rollup

/-! ## A tool that writes a line -/

namespace DryRun.EngineScript

/-- A tool that writes a line in the place of the result, unless it fails before. -/
theorem writesResult_engine {s : EngineScript} (hs : s.mode = .write) :
    (s.engine Memory.store).WritesResult where
  writes q w := by
    obtain ⟨m, log⟩ := w
    by_cases hfails : (s.mode == .fail || s.failAt == some log.length) = true
    · have hact : s.act Memory.store log.length q m = .error (.rollupFailed q.entryPath) m := by
        rw [act, if_pos hfails]
        rfl
      exact ⟨[], by simp only [engine, hact]; rfl⟩
    · let line : Text := "// rolled up from " ++ q.entryPath.text ++ "\n"
      have hact : s.act Memory.store log.length q m = .ok () (m.insert q.outputPath line) := by
        rw [act, if_neg hfails, hs]
        rfl
      exact ⟨[line], by simp only [engine, hact]; rfl⟩
  result {q w w'} hrun := by
    obtain ⟨line, hwrite⟩ := outcome_engine hs hrun
    obtain ⟨-, hw⟩ := Prod.mk.inj hwrite
    rw [← hw]
    show (w.1.files.insert q.outputPath line).contains q.outputPath = true
    rw [PathMap.contains_insert, Path.same_self]
    rfl

end DryRun.EngineScript

namespace Rollup

open DryRun (EngineScript)

/-- A rollup in memory whose tool writes a line for each result, or fails at one of them. -/
def scripted (failAt : Option Nat) : Rollup (Memory × List RollupRequest) :=
  { inMemory with engine := EngineScript.engine ⟨.write, failAt⟩ Memory.store, files := Memory.store.zoom }

theorem cleanup_exact_scripted :
    (∃ b₁ kept b',
      outcome ((scripted none).ask apart "/p/dist/index.d.ts" (benchOf apartFiles)) = (.ok (), b₁) ∧
      outcome ((scripted none).run apart "/p/dist/index.d.ts" (.ofList apartFiles) (benchOf apartFiles))
        = (.ok (["/p/dist/one.d.ts", "/p/dist/two.d.ts"], kept), b') ∧
      (scripted none).Cleaned ((scripted none).targets apart "/p/dist/index.d.ts") (.ofList apartFiles)
        (.ofFiles apartFiles) b₁.world.1 b'.world.1 kept) ∧
    ∃ b₁, outcome
          ((scripted (some 1)).run apart "/p/dist/index.d.ts" (.ofList apartFiles) (benchOf apartFiles))
        = (.error (.rollupFailed "/p/dist/two.d.ts"), b₁) ∧
      ∀ p, (Memory.ofFiles apartFiles).files.contains p = true → b₁.world.1.files.contains p = true := by
  have htypes : (Path.fileName? "/p/dist/index.d.ts").isSome = true := by decide +kernel
  have hd : inMemory.outDir.isAbsolute = true := by decide +kernel
  obtain ⟨hordered, hapart, hkeys, hout, hfree⟩ : (PathMap.ofList apartFiles).Ordered ∧
      (Memory.ofFiles apartFiles).Apart ∧
      (∀ q ∈ (PathMap.ofList apartFiles).keys, (Memory.ofFiles apartFiles).files.contains q = true) ∧
      (Memory.ofFiles apartFiles).files.contains inMemory.outDir = false ∧
      ∀ t ∈ inMemory.targets apart "/p/dist/index.d.ts",
        (Memory.ofFiles apartFiles).dirs.contains (inMemory.resultOf t) = false := by
    unfold PathMap.Ordered apartFiles
    repeat rw [Text.toList_literal rfl]
    decide +kernel
  have hemitted : ∀ p, (PathMap.ofList apartFiles).contains p = true →
      (Memory.ofFiles apartFiles).files.contains p = true := by
    intro p hp
    obtain ⟨q, hq, hs⟩ := PathMap.mem_keys_of_contains hp
    rw [← PathMap.contains_congr hs]
    exact hkeys q hq
  have hlaw (failAt : Option Nat) := cleanup_exact (r := scripted failAt) rfl
    (EngineScript.writesResult_engine rfl) (b := benchOf apartFiles) htypes hd hordered
    (Memory.reachable_ofFiles apartFiles) hapart hemitted hout hfree
  constructor
  · have hok : (outcome ((scripted none).ask apart "/p/dist/index.d.ts" (benchOf apartFiles))).1
        = .ok () := by
      unfold apartFiles
      repeat rw [Text.toList_literal rfl]
      decide +kernel
    have houtputs : ((scripted none).targets apart "/p/dist/index.d.ts").map (scripted none).resultOf
        = (["/p/dist/one.d.ts", "/p/dist/two.d.ts"] : List Path) := by decide +kernel
    obtain ⟨kept, b', hrun, hcleaned⟩ := (hlaw none).2 _ (Prod.ext hok rfl)
    exact ⟨_, kept, b', Prod.ext hok rfl, houtputs ▸ hrun, hcleaned⟩
  · have hfails : (outcome ((scripted (some 1)).ask apart "/p/dist/index.d.ts" (benchOf apartFiles))).1
        = .error (.rollupFailed "/p/dist/two.d.ts") := by
      unfold apartFiles
      repeat rw [Text.toList_literal rfl]
      decide +kernel
    exact ⟨_, (hlaw (some 1)).1 _ _ (Prod.ext hfails rfl)⟩

end Rollup

end Typings
