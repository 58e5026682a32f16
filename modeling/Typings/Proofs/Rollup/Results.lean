import Typings.DryRun.Engine
import Typings.Proofs.Files.Contents
import Typings.Proofs.Output.Accumulator
import Typings.Proofs.Rollup.Targets

/-!
# `Results` — what a rollup leaves

A successful rollup is described by the texts it leaves, place by place (`Leaves`).  Targets that are
owned are filled with their results; a target whose result is put elsewhere stays as it was written,
although what it points at is removed and it is itself forgotten (`roots_not_filled`).

* `RollupEngine.Exact`: the tool writes the result it is asked for, and nothing else.
* `Rollup.Rolls`: the tool is asked about some targets in turn; `Rolls.text?`.
* `Rollup.Leaves`, `Rollup.leaves_run`: what a successful rollup leaves.
* `Rollup.Fills`, `Rollup.fills_run`: which targets it fills.
-/

namespace Typings

open Accumulator (lastAt? lastAt?_cons)
open Files (FileStore)

variable {σ α : Type}

/-- The tool puts its result where it is told, and touches no other file. -/
structure RollupEngine.Exact (e : RollupEngine σ) (files : FileStore σ) : Prop where
  result : ∀ {q w w'}, outcome (e.run q w) = (.ok (), w') → (files.text? w' q.outputPath).isSome = true
  others : ∀ {q w w'}, outcome (e.run q w) = (.ok (), w') → ∀ p, q.outputPath.same p = false →
    files.text? w' p = files.text? w p

namespace Rollup

variable {r : Rollup σ} {lib : Option Path}

/-! ## One target after the other -/

/-- The tool is asked about some targets in turn; `flattened` are its results. -/
inductive Rolls (r : Rollup σ) (lib : Option Path) :
    σ → List Path → List OutputFile → σ → Prop where
  | nil {w : σ} : Rolls r lib w [] [] w
  | cons {w w₁ w' : σ} {target : Path} {rest : List Path} {text : Text} {flattened : List OutputFile}
      (package : Option Path)
      (hrun : outcome (r.engine.run (r.request lib package target) w) = (.ok (), w₁))
      (htext : r.files.text? w₁ (r.resultOf target) = some text)
      (hrest : Rolls r lib w₁ rest flattened w') :
      Rolls r lib w (target :: rest) (⟨r.resultOf target, text⟩ :: flattened) w'

theorem Rolls.paths {w w' : σ} {targets : List Path} {flattened : List OutputFile}
    (h : r.Rolls lib w targets flattened w') : flattened.map (·.path) = targets.map r.resultOf := by
  induction h with
  | nil => rfl
  | cons _ _ _ _ ih => rw [List.map_cons, List.map_cons, ih]

theorem Rolls.isSome_lastAt? {w w' : σ} {targets : List Path} {flattened : List OutputFile}
    (h : r.Rolls lib w targets flattened w') (p : Path) :
    (lastAt? flattened p).isSome = targets.any fun t => (r.resultOf t).same p := by
  have hpaths : (flattened.map (·.path)).any (·.same p) = (targets.map r.resultOf).any (·.same p) := by
    rw [h.paths]
  rw [List.any_map, List.any_map] at hpaths
  rw [Accumulator.isSome_lastAt?]
  exact hpaths

/-- The last result at a place is what is there, and other places are left alone. -/
theorem Rolls.text? (hfiles : r.files.Lawful) (htool : r.engine.Exact r.files) {w w' : σ}
    {targets : List Path} {flattened : List OutputFile} (h : r.Rolls lib w targets flattened w')
    (p : Path) : r.files.text? w' p = (lastAt? flattened p).or (r.files.text? w p) := by
  induction h with
  | nil => rfl
  | @cons w w₁ w' target rest text flattened package hrun htext _ ih =>
      rw [ih, lastAt?_cons, Option.or_assoc]
      cases hs : (r.resultOf target).same p with
      | true =>
          rw [← hfiles.place hs, htext]
          rfl
      | false =>
          rw [htool.others hrun p hs]
          rfl

theorem outcome_onWorld (op : EStateM BuildError σ α) (b : Workbench σ) :
    outcome (WorkM.onWorld op b)
      = ((outcome (op b.world)).1, { b with world := (outcome (op b.world)).2 }) := by
  rw [WorkM.onWorld]
  cases op b.world <;> rfl

theorem rolls_runTargets (htool : r.engine.Exact r.files) {targets outputs : List Path}
    {emitted stale : PathMap Text} {b b' : Workbench σ}
    (h : outcome (r.runTargets lib emitted targets b) = (.ok (outputs, stale), b')) :
    ∃ flattened, r.Rolls lib b.world targets flattened b'.world ∧ outputs = targets.map r.resultOf ∧
      ∀ p, stale.contains p
        = (emitted.contains p && !targets.any (·.same p) && !outputs.any (·.same p)) := by
  induction targets generalizing emitted b outputs stale with
  | nil =>
      obtain ⟨hok, rfl⟩ := Prod.mk.inj h
      obtain ⟨rfl, rfl⟩ := Prod.mk.inj (Except.ok.inj hok)
      exact ⟨[], .nil, rfl, fun p => by simp⟩
  | cons target rest ih =>
      rw [runTargets] at h
      obtain ⟨package, b₁, hpackage, h⟩ := exists_of_outcome_bind h
      obtain ⟨_, b₂, htoolrun, h⟩ := exists_of_outcome_bind h
      obtain ⟨⟨outputs', stale'⟩, b₃, hrest, h⟩ := exists_of_outcome_bind h
      obtain ⟨hok, rfl⟩ := Prod.mk.inj h
      obtain ⟨rfl, rfl⟩ := Prod.mk.inj (Except.ok.inj hok)
      have hworld : b₁.world = b.world := by
        have hsame : (outcome (r.packageJson b)).2.world = b.world := rfl
        rw [hpackage] at hsame
        exact hsame
      rw [outcome_onWorld, hworld] at htoolrun
      obtain ⟨hdone, rfl⟩ := Prod.mk.inj htoolrun
      have hrun : outcome (r.engine.run (r.request lib package target) b.world)
          = (.ok (), (outcome (r.engine.run (r.request lib package target) b.world)).2) :=
        Prod.ext hdone rfl
      obtain ⟨text, htext⟩ := Option.isSome_iff_exists.mp (htool.result hrun)
      obtain ⟨flattened, hrolls, rfl, hstale⟩ := ih hrest
      refine ⟨_, .cons package hrun htext hrolls, rfl, fun p => ?_⟩
      rw [hstale, PathMap.contains_erase, PathMap.contains_erase]
      simp only [List.any_cons, Bool.not_or]
      ac_rfl

theorem readAll_ok {world : σ} {ps : List Path} {texts : List (Path × Text)}
    (h : r.readAll world ps = .ok texts) :
    texts.map (·.1) = ps ∧ ∀ e ∈ texts, r.files.text? world e.1 = some e.2 := by
  induction ps generalizing texts with
  | nil =>
      obtain rfl := Except.ok.inj h
      exact ⟨rfl, by simp⟩
  | cons p ps ih =>
      rw [readAll] at h
      cases hread : r.files.read world p with
      | error e =>
          rw [hread] at h
          exact nomatch h
      | ok text =>
          rw [hread] at h
          cases hrest : r.readAll world ps with
          | error e =>
              rw [hrest] at h
              exact nomatch h
          | ok others =>
              rw [hrest] at h
              obtain rfl := Except.ok.inj h
              obtain ⟨hpaths, htexts⟩ := ih hrest
              refine ⟨congrArg (p :: ·) hpaths, List.forall_mem_cons.mpr ⟨?_, htexts⟩⟩
              show (r.files.read world p).toOption = some text
              rw [hread]
              rfl

/-! ## What is left -/

/-- What a successful rollup of some targets leaves, when `emitted` has been written before and
    `flattened` are the results. -/
structure Leaves (r : Rollup σ) (targets : List Path) (emitted : PathMap Text)
    (flattened : List OutputFile) (w w' : σ) (kept : PathMap Text) : Prop where
  /-- At the place of a result is the last one put there.  What had been written and is no target is
      removed, and everything else stays as it was. -/
  texts : ∀ p, r.files.text? w' p = (lastAt? flattened p).or
    (if emitted.contains p && !targets.any (·.same p) then none else r.files.text? w p)
  kept : ∀ p, kept.get? p = lastAt? flattened p

theorem outcome_ofExcept {x : Except BuildError α} {a : α} {b b' : Workbench σ}
    (h : outcome (WorkM.ofExcept x b) = (.ok a, b')) : x = .ok a ∧ b' = b := by
  cases x with
  | ok _ =>
      obtain ⟨hok, rfl⟩ := Prod.mk.inj h
      exact ⟨congrArg Except.ok (Except.ok.inj hok), rfl⟩
  | error e => exact nomatch (Prod.mk.inj h).1

/-- Files that are left over are removed, and then the directories that are empty. -/
theorem text?_clear (hfiles : r.files.Lawful) {stale : PathMap Text} {b₁ b₂ b₃ : Workbench σ}
    {done : List Unit} {gone : Bool}
    (hremove : outcome (WorkM.runAll (fun p => WorkM.files (r.files.remove p)) stale.keys b₁)
      = (.ok done, b₂))
    (hprune : outcome (WorkM.files (r.files.prune r.outDir) b₂) = (.ok gone, b₃)) (p : Path) :
    r.files.text? b₃.world p = if stale.contains p then none else r.files.text? b₁.world p := by
  rw [FileStore.outcome_files] at hprune
  obtain ⟨-, rfl⟩ := Prod.mk.inj hprune
  rw [hfiles.prune, hfiles.removeAll hremove, PathMap.any_keys_same]

/-- A successful rollup asks about its targets in turn, removes what is left over and reads its results. -/
theorem stages_run (hfiles : r.files.Lawful) (htool : r.engine.Exact r.files) {entries : List Entry}
    {types : Path} {emitted kept : PathMap Text} {outputs : List Path} {b b' : Workbench σ}
    (h : outcome (r.run entries types emitted b) = (.ok (outputs, kept), b')) :
    ∃ lib flattened w texts, r.Rolls lib b.world (r.targets entries types) flattened w ∧
      outputs = (r.targets entries types).map r.resultOf ∧
      (∀ p, r.files.text? b'.world p
        = if emitted.contains p && !(r.targets entries types).any (·.same p) && !outputs.any (·.same p)
          then none else r.files.text? w p) ∧
      r.readAll b'.world outputs = .ok texts ∧ kept = PathMap.ofList texts := by
  rw [run] at h
  obtain ⟨_, b₁, hreport, h⟩ := exists_of_outcome_bind h
  obtain ⟨-, rfl⟩ := Prod.mk.inj hreport
  obtain ⟨_, b₂, hworld, h⟩ := exists_of_outcome_bind h
  obtain ⟨-, rfl⟩ := Prod.mk.inj hworld
  obtain ⟨⟨outputs', stale⟩, b₃, hrun, h⟩ := exists_of_outcome_bind h
  obtain ⟨_, b₄, hremove, h⟩ := exists_of_outcome_bind h
  obtain ⟨_, b₅, hprune, h⟩ := exists_of_outcome_bind h
  obtain ⟨now, b₆, hnow, h⟩ := exists_of_outcome_bind h
  obtain ⟨hworld', rfl⟩ := Prod.mk.inj hnow
  obtain rfl := Except.ok.inj hworld'
  obtain ⟨texts, b₇, hread, hend⟩ := exists_of_outcome_bind h
  obtain ⟨hread, rfl⟩ := outcome_ofExcept hread
  obtain ⟨hok, rfl⟩ := Prod.mk.inj hend
  obtain ⟨rfl, rfl⟩ := Prod.mk.inj (Except.ok.inj hok)
  obtain ⟨flattened, hrolls, rfl, hstale⟩ := rolls_runTargets htool hrun
  refine ⟨_, flattened, _, texts, hrolls, rfl, fun p => ?_, hread, rfl⟩
  rw [text?_clear hfiles hremove hprune, hstale]

/-- **A successful rollup** asks about its targets in turn, and leaves what `Leaves` says. -/
theorem leaves_run (hfiles : r.files.Lawful) (htool : r.engine.Exact r.files) {entries : List Entry}
    {types : Path} {emitted kept : PathMap Text} {outputs : List Path} {b b' : Workbench σ}
    (h : outcome (r.run entries types emitted b) = (.ok (outputs, kept), b')) :
    ∃ lib flattened w, r.Rolls lib b.world (r.targets entries types) flattened w ∧
      outputs = (r.targets entries types).map r.resultOf ∧
      r.Leaves (r.targets entries types) emitted flattened b.world b'.world kept := by
  obtain ⟨lib, flattened, w, texts, hrolls, rfl, hafter, hread, rfl⟩ := stages_run hfiles htool h
  obtain ⟨hpaths, htexts⟩ := readAll_ok hread
  -- A place has a result exactly if it is one of the outputs.
  have hsome (p : Path) : ((r.targets entries types).map r.resultOf).any (·.same p)
      = (lastAt? flattened p).isSome := by
    rw [hrolls.isSome_lastAt?, List.any_map]
    rfl
  have hlaw (p : Path) : r.files.text? b'.world p = (lastAt? flattened p).or
      (if emitted.contains p && !(r.targets entries types).any (·.same p) then none
        else r.files.text? b.world p) := by
    rw [hafter, hsome, hrolls.text? hfiles htool]
    cases lastAt? flattened p with
    | none => simp
    | some text => simp
  refine ⟨lib, flattened, w, hrolls, rfl, hlaw, fun p => ?_⟩
  rw [PathMap.get?_ofList hfiles.place htexts]
  have hany : texts.any (·.1.same p) = (lastAt? flattened p).isSome := by
    rw [← hsome, ← hpaths, List.any_map]
    rfl
  rw [hany, hlaw]
  cases lastAt? flattened p with
  | none => rfl
  | some text => rfl

/-! ## Which targets are filled -/

theorem Rolls.path_of_mem_zip {w w' : σ} {targets : List Path} {flattened : List OutputFile}
    (h : r.Rolls lib w targets flattened w') {x : Path × OutputFile} (hx : x ∈ targets.zip flattened) :
    x.2.path = r.resultOf x.1 := by
  induction h with
  | nil => exact absurd hx (by simp)
  | cons _ _ _ _ ih =>
      rw [List.zip_cons_cons] at hx
      rcases List.mem_cons.mp hx with rfl | hx
      · rfl
      · exact ih hx

/-- Results of targets that are owned are at different places. -/
theorem Rolls.pairwise {w w' : σ} {targets : List Path} {flattened : List OutputFile}
    (h : r.Rolls lib w targets flattened w') (ho : r.Owned targets) :
    flattened.Pairwise fun o o' => o.path.same o'.path = false := by
  have hresults : (targets.map r.resultOf).Pairwise fun p q => p.same q = false := by
    rw [List.pairwise_map]
    refine ho.1.imp_of_mem fun {t u} ht hu htu => ?_
    rw [Path.same_congr (ho.2 t ht), Path.same_comm, Path.same_congr (ho.2 u hu), Path.same_comm, htu]
  rw [← h.paths, List.pairwise_map] at hresults
  exact hresults

section Left

variable {targets : List Path} {emitted kept : PathMap Text} {flattened : List OutputFile} {w w₁ w' : σ}

theorem Leaves.contains (h : r.Leaves targets emitted flattened w w' kept)
    (hrolls : r.Rolls lib w targets flattened w₁) (p : Path) :
    kept.contains p = targets.any fun t => (r.resultOf t).same p := by
  rw [PathMap.contains_eq, h.kept, hrolls.isSome_lastAt?]

theorem Leaves.lastAt?_eq_none (h : r.Leaves targets emitted flattened w w' kept) {p : Path}
    (hnot : kept.contains p = false) : lastAt? flattened p = none := by
  rw [PathMap.contains_eq, h.kept, Option.isSome_eq_false_iff, Option.isNone_iff_eq_none] at hnot
  exact hnot

/-- A target without a result stays as it was. -/
theorem Leaves.unfilled (h : r.Leaves targets emitted flattened w w' kept) {t : Path} (ht : t ∈ targets)
    (hnot : kept.contains t = false) : r.files.text? w' t = r.files.text? w t := by
  have htarget : targets.any (·.same t) = true := List.any_eq_true.mpr ⟨t, ht, Path.same_self t⟩
  rw [h.texts, h.lastAt?_eq_none hnot, htarget]
  simp

/-- Targets that are owned hold their results. -/
theorem Leaves.filled (h : r.Leaves targets emitted flattened w w' kept)
    (hrolls : r.Rolls lib w targets flattened w₁) (ho : r.Owned targets) {x : Path × OutputFile}
    (hx : x ∈ targets.zip flattened) : r.files.text? w' x.1 = some x.2.content := by
  obtain ⟨hx₁, hx₂⟩ := List.of_mem_zip (a := x.1) (b := x.2) hx
  have hplace : x.2.path.same x.1 = true := by
    rw [hrolls.path_of_mem_zip hx]
    exact ho.2 x.1 hx₁
  rw [h.texts, Accumulator.lastAt?_of_mem (hrolls.pairwise ho) hx₂ hplace]
  rfl

/-- What had been written is gone if it is neither a target nor a result. -/
theorem Leaves.gone (h : r.Leaves targets emitted flattened w w' kept) {p : Path}
    (hemitted : emitted.contains p = true) (hother : ∀ t ∈ targets, t.same p = false)
    (hnot : kept.contains p = false) : r.files.text? w' p = none := by
  have htarget : targets.any (·.same p) = false := by
    rw [List.any_eq_false]
    exact fun t ht => by simp [hother t ht]
  rw [h.texts, h.lastAt?_eq_none hnot, hemitted, htarget]
  rfl

end Left

/-- What a successful rollup of all entries does to their root files. -/
structure Fills (r : Rollup σ) (entries : List Entry) (types : Path) (emitted : PathMap Text)
    (flattened : List OutputFile) (w w' : σ) (outputs : List Path) (kept : PathMap Text) : Prop where
  /-- The targets are where the root files of the entries are planned. -/
  planned : entries ≠ [] →
    (planIndexFiles entries types r.outDir r.entryRoot).map (·.target) = r.targets entries types
  outputs : outputs = (r.targets entries types).map r.resultOf
  leaves : r.Leaves (r.targets entries types) emitted flattened w w' kept
  /-- A target's own result is put there exactly if it is a declaration directly in the output
      directory. -/
  own : ∀ t ∈ r.targets entries types, (r.resultOf t).same t = true ↔
    r.outDir.DeclaredIn t ∨ t.fileName? = none ∧ r.outDir.same t = true
  owned : (∀ e ∈ entries, '/' ∉ e.name) → (r.Owned (r.targets entries types) ↔
    if 1 < entries.length then (entries.map (·.declarationFileName)).Nodup
    else r.outDir.DeclaredIn types ∨ types.fileName? = none ∧ r.outDir.same types = true)
  /-- A target is known in the end if its own result is put there. -/
  known : ∀ t ∈ r.targets entries types, kept.contains t = (r.resultOf t).same t
  /-- A target whose result is put elsewhere stays as it was. -/
  unfilled : ∀ t ∈ r.targets entries types, (r.resultOf t).same t = false →
    r.files.text? w' t = r.files.text? w t
  /-- Targets that are owned hold their results, and they are all that is known in the end. -/
  filled : r.Owned (r.targets entries types) →
    (∀ x ∈ (r.targets entries types).zip flattened, r.files.text? w' x.1 = some x.2.content) ∧
      ∀ p, kept.contains p = (r.targets entries types).any (·.same p)
  /-- Of what had been written only targets and results are left. -/
  gone : ∀ p, emitted.contains p = true → (∀ t ∈ r.targets entries types, t.same p = false) →
    kept.contains p = false → r.files.text? w' p = none

/-- **Root files after a rollup.**  If every target is owned, each holds its result and nothing else is
    known.  A target whose result is put elsewhere keeps its text and is forgotten, although what it
    points at is removed. -/
theorem fills_run (hfiles : r.files.Lawful) (htool : r.engine.Exact r.files)
    (hd : r.outDir.isAbsolute = true) {entries : List Entry} {types : Path}
    {emitted kept : PathMap Text} {outputs : List Path} {b b' : Workbench σ}
    (h : outcome (r.run entries types emitted b) = (.ok (outputs, kept), b')) :
    ∃ lib flattened w, r.Rolls lib b.world (r.targets entries types) flattened w ∧
      r.Fills entries types emitted flattened b.world b'.world outputs kept := by
  obtain ⟨lib, flattened, w, hrolls, houtputs, hleaves⟩ := leaves_run hfiles htool h
  have hknown (t : Path) (ht : t ∈ r.targets entries types) :
      kept.contains t = (r.resultOf t).same t := by
    rw [hleaves.contains hrolls, Bool.eq_iff_iff, List.any_eq_true]
    constructor
    · rintro ⟨u, hu, hut⟩
      exact resultOf_same_self hd ht hu hut
    · exact fun hown => ⟨t, ht, hown⟩
  refine ⟨lib, flattened, w, hrolls, ?_⟩
  constructor
  case planned => exact fun hne => target_planIndexFiles r types r.entryRoot hne
  case outputs => exact houtputs
  case leaves => exact hleaves
  case own => exact fun t _ => resultOf_same_iff hd t
  case owned => exact fun hs => owned_targets_iff hd hs
  case known => exact hknown
  case unfilled => exact fun t ht hnot => hleaves.unfilled ht ((hknown t ht).trans hnot)
  case filled =>
    intro ho
    refine ⟨fun x hx => hleaves.filled hrolls ho hx, fun p => ?_⟩
    rw [hleaves.contains hrolls, ho.any_same]
  case gone => exact fun p hemitted hother hnot => hleaves.gone hemitted hother hnot

end Rollup

/-! ## A tool that writes a line -/

namespace DryRun.EngineScript

theorem outcome_act {files : FileStore σ} {s : EngineScript} (hs : s.mode = .write) {n : Nat}
    {q : RollupRequest} {w w' : σ} (h : outcome (s.act files n q w) = (.ok (), w')) :
    ∃ line, outcome (files.write q.outputPath line w) = (.ok (), w') := by
  refine ⟨"// rolled up from " ++ q.entryPath.text ++ "\n", ?_⟩
  rw [act] at h
  split at h
  · exact nomatch h
  · rw [hs] at h
    dsimp only at h
    split at h
    · rename_i hwrite
      obtain ⟨-, rfl⟩ := Prod.mk.inj h
      rw [hwrite]
      rfl
    · exact nomatch h

theorem outcome_engine {files : FileStore σ} {s : EngineScript} (hs : s.mode = .write)
    {q : RollupRequest} {w w' : σ × List RollupRequest}
    (h : outcome ((s.engine files).run q w) = (.ok (), w')) :
    ∃ line, outcome (files.write q.outputPath line w.1) = (.ok (), w'.1) := by
  obtain ⟨w, log⟩ := w
  cases hact : s.act files log.length q w with
  | ok u w₁ =>
      simp only [engine, hact] at h
      obtain ⟨-, rfl⟩ := Prod.mk.inj h
      exact outcome_act hs (congrArg outcome hact)
  | error e w₁ =>
      simp only [engine, hact] at h
      exact nomatch h

/-- A tool that writes a line in the place of the result does nothing else. -/
theorem exact_engine {files : FileStore σ} (hfiles : files.Lawful) {s : EngineScript}
    (hs : s.mode = .write) : (s.engine files).Exact files.zoom where
  result {q w w'} hrun := by
    obtain ⟨line, hwrite⟩ := outcome_engine hs hrun
    show (files.text? w'.1 q.outputPath).isSome = true
    rw [hfiles.write hwrite, if_pos (Path.same_self _)]
    rfl
  others {q w w'} hrun p hp := by
    obtain ⟨line, hwrite⟩ := outcome_engine hs hrun
    show files.text? w'.1 p = files.text? w.1 p
    rw [hfiles.write hwrite, hp]
    rfl

end DryRun.EngineScript

namespace Rollup

open DryRun (EngineScript)
open Files (Memory)

-- Sorting is by well-founded recursion, at which the evaluation of a run would stop.
/-- Files in memory, with the children of a directory in no order of their own. -/
def unsorted : FileStore Memory :=
  { Memory.store with
    list m dir :=
      let files := (m.files.keys.filter (Memory.isChild dir)).map fun p => ⟨p, false⟩
      let dirs := (m.dirs.keys.filter (Memory.isChild dir)).map fun p => ⟨p, true⟩
      if m.dirs.contains dir then .ok (files ++ dirs) else .error (.notFound dir) }

theorem lawful_unsorted : unsorted.Lawful where
  place := Memory.lawful_store.place
  write := Memory.lawful_store.write
  remove := Memory.lawful_store.remove
  createDirs := Memory.lawful_store.createDirs
  removeDir := Memory.lawful_store.removeDir

/-- A rollup in memory whose tool writes a line for each result. -/
def inMemory : Rollup (Memory × List RollupRequest) where
  engine := EngineScript.engine ⟨.write, none⟩ unsorted
  files := unsorted.zoom
  root := "/p"
  entryRoot := "/p/src"
  outDir := "/p/dist"
  configPath := none
  compilerOptions := .null
  bundledPackages := []

/-- The state of a flush that has written some files. -/
def benchOf (files : List (Path × Text)) : Workbench (Memory × List RollupRequest) where
  world := (Memory.ofFiles files, [])

/-- How a rollup of some entries ends, after some files have been written. -/
def rolledUp (entries : List Entry) (types : Path) (files : List (Path × Text)) :
    Except BuildError (List Path × PathMap Text) × Workbench (Memory × List RollupRequest) :=
  outcome (inMemory.run entries types (.ofList files) (benchOf files))

/-- Two entries in directories of their own. -/
def apart : List Entry := [.ofPath "/p" "src/a/one.ts", .ofPath "/p" "src/b/two.ts"]

/-- The declarations of two entries, and their root files. -/
def apartFiles : List (Path × Text) :=
  [("/p/dist/a/one.d.ts", "export declare const a = 1;\n"),
    ("/p/dist/b/two.d.ts", "export declare const b = 1;\n"),
    ("/p/dist/one.d.ts", "export * from './a/one'\n"), ("/p/dist/two.d.ts", "export * from './b/two'\n")]

theorem fills_run_apart :
    (inMemory.files.Lawful ∧ inMemory.engine.Exact inMemory.files ∧ inMemory.outDir.isAbsolute = true) ∧
      inMemory.Owned (inMemory.targets apart "/p/dist/index.d.ts") ∧
      ∃ outputs kept b', rolledUp apart "/p/dist/index.d.ts" apartFiles = (.ok (outputs, kept), b') ∧
        ∃ lib flattened w,
          inMemory.Rolls lib (benchOf apartFiles).world (inMemory.targets apart "/p/dist/index.d.ts")
            flattened w ∧
          inMemory.Fills apart "/p/dist/index.d.ts" (.ofList apartFiles) flattened
            (benchOf apartFiles).world b'.world outputs kept := by
  have hfiles : inMemory.files.Lawful := lawful_unsorted.zoom
  have htool : inMemory.engine.Exact inMemory.files :=
    EngineScript.exact_engine (s := ⟨.write, none⟩) lawful_unsorted rfl
  have hd : inMemory.outDir.isAbsolute = true := by decide +kernel
  have howned : inMemory.Owned (inMemory.targets apart "/p/dist/index.d.ts") := by
    unfold Owned
    decide +kernel
  have hok : (rolledUp apart "/p/dist/index.d.ts" apartFiles).1.toOption.isSome = true := by
    unfold apartFiles
    repeat rw [Text.toList_literal rfl]
    decide +kernel
  obtain ⟨⟨outputs, kept⟩, b', hrun⟩ := exists_of_isSome hok
  exact ⟨⟨hfiles, htool, hd⟩, howned, outputs, kept, b', hrun, fills_run hfiles htool hd hrun⟩

/-- An entry whose types are said to be in a directory of their own, and what has been written. -/
def nestedFiles : List (Path × Text) :=
  [("/p/dist/main.d.ts", "export declare const a = 1;\n"),
    ("/p/dist/types/lib.d.ts", "export * from '../main'\n")]

/-- Two entries of one name. -/
def namesakes : List Entry := [.ofPath "/p" "src/a/index.ts", .ofPath "/p" "src/b/index.ts"]

/-- Types below the output directory are not where the result is put: the root file stays, and what it
    points at is removed.  Two entries of one name have the same root file. -/
theorem roots_not_filled :
    ((rolledUp [.ofPath "/p" "src/main.ts"] "/p/dist/types/lib.d.ts" nestedFiles).1.map (·.1)
        = .ok ["/p/dist/lib.d.ts"] ∧
      inMemory.files.text?
          (rolledUp [.ofPath "/p" "src/main.ts"] "/p/dist/types/lib.d.ts" nestedFiles).2.world
          "/p/dist/types/lib.d.ts" = some "export * from '../main'\n".toList ∧
      inMemory.files.text?
          (rolledUp [.ofPath "/p" "src/main.ts"] "/p/dist/types/lib.d.ts" nestedFiles).2.world
          "/p/dist/main.d.ts" = none) ∧
    (namesakes.map (·.source)).Nodup ∧
      (planIndexFiles namesakes "/p/dist/index.d.ts" "/p/dist" "/p/src").map (·.target)
        = [⟨"/p/dist/index.d.ts".toList⟩, ⟨"/p/dist/index.d.ts".toList⟩] := by
  unfold nestedFiles namesakes
  repeat rw [Text.toList_literal rfl]
  decide +kernel

end Rollup

end Typings
