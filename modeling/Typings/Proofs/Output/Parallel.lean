import Mathlib.Data.List.Nodup
import Typings.Proofs.Files.Contents
import Typings.Proofs.Files.Obstacles

/-!
# `Parallel` — outputs that are written in any order

The outputs of a flush are written by independent tasks, and nobody knows which of them comes first.  All of
them run, and how they ended is put back in the order of the outputs before the first failure is looked for.
The running definition takes the outputs as they come; here they are taken in any order
(`WorkM.runInOrder`).

If the outputs go to different places, the order shows neither in the files nor in what is told in the end,
and it shows in the directories at torn places only (`Writer.writeOutputs_in_any_order`).  That needs no more
than that the store can say for each file whether it will be written.  A place is torn if an output is written
there as a file, and outputs right below it would have a directory made there before their own write is
refused: a directory is made only if its place is not taken, so it counts who comes first.  Files in memory
refuse nothing and have no torn places.

* `WorkM.attemptAll`, `WorkM.runInOrder`: numbered tasks in any order; `runInOrder_zipIdx`: in their own.
* `outcome_runInOrder`: tasks that end the same whenever they run.
* `outcome_put`, `outcome_writeOutput`: one output in a store with obstacles.
* `Writer.Isolates`: each output is written for itself.
* `Writer.Agrees`: two runs leave the same but for torn places; `exists_order_first`: any output may come
  first, so at a torn place the order does show (`exists_orders_of_torn`).
-/

namespace Typings

open Files (FileStore Memory Obstacles Obstructed StoreError StoreM)

variable {σ τ α β : Type}

namespace WorkM

/-! ## Tasks in any order -/

/-- Runs numbered tasks one after the other, and tells how each ended.  All of them run. -/
def attemptAll (task : α → WorkM σ β) :
    List (α × Nat) → Workbench σ → List (Except BuildError β × Nat) × Workbench σ
  | [], b => ([], b)
  | (a, i) :: rest, b =>
    let (r, b) := outcome (task a b)
    let (rs, b) := attemptAll task rest b
    ((r, i) :: rs, b)

/-- Runs numbered tasks in the order in which they are listed; the results are put in the order of the
    numbers.  All of the tasks run; then the first failure counts. -/
def runInOrder (task : α → WorkM σ β) (order : List (α × Nat)) : WorkM σ (List β) := fun b =>
  let (rs, b) := attemptAll task order b
  match (rs.mergeSort fun x y => decide (x.2 ≤ y.2)).mapM (·.1) with
  | .ok xs => .ok xs b
  | .error e => .error e b

theorem outcome_runInOrder_eq (task : α → WorkM σ β) (order : List (α × Nat)) (b : Workbench σ) :
    outcome (runInOrder task order b) =
      (((attemptAll task order b).1.mergeSort fun x y => decide (x.2 ≤ y.2)).mapM (·.1),
        (attemptAll task order b).2) := by
  unfold runInOrder
  dsimp only
  split <;> next h => rw [h]; rfl

theorem map_snd_attemptAll (task : α → WorkM σ β) (order : List (α × Nat)) (b : Workbench σ) :
    (attemptAll task order b).1.map (·.2) = order.map (·.2) := by
  induction order generalizing b with
  | nil => rfl
  | cons x order ih => exact congrArg (x.2 :: ·) (ih _)

/-- Sorting by numbers that are all different finds the one list in their order. -/
theorem mergeSort_numbered {rs rs' : List (β × Nat)} (hperm : rs.Perm rs') {k n : Nat}
    (h : rs'.map (·.2) = List.range' k n) : rs.mergeSort (fun x y => decide (x.2 ≤ y.2)) = rs' := by
  have hordered : (rs'.map (·.2)).Pairwise (· ≤ ·) := by
    rw [h]
    exact List.pairwise_le_range' 1
  have hsorted : (rs.mergeSort fun x y => decide (x.2 ≤ y.2)).Pairwise fun x y => x.2 ≤ y.2 := by
    refine (List.pairwise_mergeSort ?_ ?_ rs).imp decide_eq_true_iff.mp
    · intro x y z hxy hyz
      exact decide_eq_true ((of_decide_eq_true hxy).trans (of_decide_eq_true hyz))
    · intro x y
      simpa using Nat.le_total x.2 y.2
  have hnodup : (rs'.map (·.2)).Nodup := by
    rw [h]
    exact List.nodup_range' 1
  have hall := (List.mergeSort_perm rs fun x y => decide (x.2 ≤ y.2)).trans hperm
  refine hall.eq_of_pairwise (fun x y hx hy hxy hyx => ?_) hsorted (List.pairwise_map.mp hordered)
  exact List.inj_on_of_nodup_map hnodup (hall.mem_iff.mp hx) hy (Nat.le_antisymm hxy hyx)

/-- In the order of their numbers the tasks are run as they come. -/
theorem runInOrder_zipIdx (task : α → WorkM σ β) (as : List α) (b : Workbench σ) :
    outcome (runInOrder task as.zipIdx b) = outcome (runAll task as b) := by
  have hrun : ∀ k b, ((attemptAll task (as.zipIdx k) b).1.mapM (·.1), (attemptAll task (as.zipIdx k) b).2)
      = outcome (runAll task as b) := by
    induction as with
    | nil => exact fun _ _ => rfl
    | cons a as ih =>
        intro k b
        rw [Adds.outcome_runAll_cons, List.zipIdx_cons, attemptAll]
        dsimp only
        rw [← ih (k + 1), List.mapM_cons]
  have hnumbers : (attemptAll task as.zipIdx b).1.map (·.2) = List.range' 0 as.length := by
    rw [map_snd_attemptAll, List.zipIdx_map_snd]
  rw [outcome_runInOrder_eq, mergeSort_numbered (.refl _) hnumbers, hrun]

section

variable {task : α → WorkM σ β} {ending : α → Except BuildError β} (view : Workbench σ → τ)
  {step : α → τ → τ}
  (h : ∀ a b, (outcome (task a b)).1 = ending a ∧ view (outcome (task a b)).2 = step a (view b))

include h

/-- Tasks that end the same whenever they run: how they end, and what they do to what is looked at. -/
theorem attemptAll_eq (order : List (α × Nat)) (b : Workbench σ) :
    (attemptAll task order b).1 = order.map (fun x => (ending x.1, x.2)) ∧
      view (attemptAll task order b).2 = (order.map (·.1)).foldl (fun s a => step a s) (view b) := by
  induction order generalizing b with
  | nil => exact ⟨rfl, rfl⟩
  | cons x order ih =>
      obtain ⟨hending, hview⟩ := h x.1 b
      obtain ⟨hends, hviews⟩ := ih (outcome (task x.1 b)).2
      constructor
      · exact congrArg₂ (fun r rs => (r, x.2) :: rs) hending hends
      · rw [hview] at hviews
        exact hviews

/-- The order of such tasks shows in what they do, but not in what is told. -/
theorem outcome_runInOrder {as : List α} {order : List (α × Nat)} (horder : order.Perm as.zipIdx)
    (b : Workbench σ) :
    (outcome (runInOrder task order b)).1 = as.mapM ending ∧
      view (outcome (runInOrder task order b)).2
        = (order.map (·.1)).foldl (fun s a => step a s) (view b) := by
  obtain ⟨hends, hview⟩ := attemptAll_eq view h order b
  have hnumbers : (as.zipIdx.map fun x => (ending x.1, x.2)).map (·.2) = List.range' 0 as.length := by
    rw [List.map_map, ← List.zipIdx_map_snd 0 as]
    rfl
  rw [outcome_runInOrder_eq]
  refine ⟨?_, hview⟩
  rw [hends, mergeSort_numbered (horder.map _) hnumbers, List.mapM_map]
  calc as.zipIdx.mapM (ending ∘ Prod.fst)
      = (as.zipIdx.map Prod.fst).mapM ending := List.mapM_map.symm
    _ = as.mapM ending := by rw [List.zipIdx_map_fst]

end

end WorkM

/-! ## One output -/

/-- The work does to the memory what the act does, and ends as it does. -/
def Acts (memory : σ → Memory) (op : WorkM σ Unit) (act : StoreM Memory Unit) : Prop :=
  ∀ b, (outcome (op b)).1 = (outcome (act (memory b.world))).1.mapError .files ∧
    memory (outcome (op b)).2.world = (outcome (act (memory b.world))).2

namespace Acts

variable {memory : σ → Memory} {op more : WorkM σ Unit} {act later : StoreM Memory Unit}

theorem files {op : StoreM σ Unit}
    (h : ∀ s, (outcome (op s)).map id memory = outcome (act (memory s))) :
    Acts memory (WorkM.files op) act := by
  intro b
  rw [FileStore.outcome_files, ← h]
  exact ⟨rfl, rfl⟩

/-- More work is done if the first succeeds. -/
theorem bind (h : Acts memory op act) (hmore : Acts memory more later) :
    Acts memory (op >>= fun _ => more) (act >>= fun _ => later) := by
  intro b
  obtain ⟨hend, hworld⟩ := h b
  rw [outcome_bind, outcome_bind]
  cases hop : outcome (op b) with
  | mk r b' =>
      cases hact : outcome (act (memory b.world)) with
      | mk s m =>
          rw [hop, hact] at hend hworld
          dsimp only at hend hworld
          rw [hend, ← hworld]
          cases s with
          | ok u => exact hmore b'
          | error e => exact ⟨rfl, rfl⟩

/-- A report behind the work does not touch the memory. -/
theorem thenReport (h : Acts memory op act) (e : Event) (told : Bool) :
    Acts memory (op >>= fun _ => if told then WorkM.report e else pure ()) act := by
  intro b
  rw [← (h b).1, ← (h b).2, outcome_bind]
  cases outcome (op b) with
  | mk r b' =>
      cases r with
      | ok u => cases told <;> exact ⟨rfl, rfl⟩
      | error e => exact ⟨rfl, rfl⟩

end Acts

namespace Writer

variable {w : Writer σ} {memory : σ → Memory} {o : Obstacles}

/-- A file is put as the obstacles have it. -/
theorem acts_put (h : Obstructed w.files memory o) (f : OutputFile) :
    Acts memory (w.put f) (o.put f) := by
  have hwrite := (Acts.files (h.write f.path f.content)).thenReport (.fileWritten f.path) w.detailed
  have hboth := (Acts.files (h.createDirs f.path.parentDir)).bind hwrite
  intro b
  by_cases hthere : w.files.isThere b.world f.path.parentDir = true
  · have hput : w.put f b = (do
        WorkM.files (w.files.write f.path f.content)
        if w.detailed then WorkM.report (.fileWritten f.path) else pure ()) b := by
      show (if !w.files.isThere b.world f.path.parentDir then _ else _ : WorkM σ Unit) b = _
      rw [hthere]
      rfl
    rw [hput, Obstacles.put_of_there (by rw [← h.isThere, hthere])]
    exact hwrite b
  · rw [Bool.not_eq_true] at hthere
    have hput : w.put f b = (do
        WorkM.files (w.files.createDirs f.path.parentDir)
        WorkM.files (w.files.write f.path f.content)
        if w.detailed then WorkM.report (.fileWritten f.path) else pure ()) b := by
      show (if !w.files.isThere b.world f.path.parentDir then _ else _ : WorkM σ Unit) b = _
      rw [hthere]
      rfl
    rw [hput, Obstacles.put_of_not_there (by rw [← h.isThere, hthere])]
    exact hboth b

/-- How the task of an output ends. -/
def ending (o : Obstacles) : Option OutputFile → Except BuildError (Option OutputFile)
  | none => .ok none
  | some f =>
    match o.against? f with
    | some e => .error (.files e)
    | none => .ok (some f)

theorem outcome_write (h : Obstructed w.files memory o) (f : OutputFile) (b : Workbench σ) :
    (outcome (w.write f b)).1 = ending o (w.written? f) ∧
      memory (outcome (w.write f b)).2.world = o.putAll (w.written? f).toList (memory b.world) := by
  unfold write written?
  cases (w.hooks.beforeWrite f).apply f with
  | none => exact ⟨rfl, rfl⟩
  | some f =>
      dsimp only
      by_cases hallow : w.allows f.path.normalize = true
      · rw [if_pos hallow, if_pos hallow]
        obtain ⟨hend, hworld⟩ := acts_put h { f with path := f.path.normalize } b
        rw [Obstacles.fst_put] at hend
        rw [outcome_bind, ending]
        cases hput : outcome (w.put { f with path := f.path.normalize } b) with
        | mk r b' =>
            rw [hput] at hend hworld
            dsimp only at hend
            cases ho : o.against? { f with path := f.path.normalize } with
            | some e =>
                rw [ho] at hend
                rw [hend]
                exact ⟨rfl, hworld⟩
            | none =>
                rw [ho] at hend
                rw [hend]
                exact ⟨rfl, hworld⟩
      · rw [if_neg hallow, if_neg hallow]
        exact ⟨rfl, rfl⟩

/-- The task of one output puts at most one file; how it ends does not depend on when it runs. -/
theorem outcome_writeOutput (h : Obstructed w.files memory o) (layout : Layout) (x : OutputFile)
    (b : Workbench σ) :
    (outcome (w.writeOutput layout x b)).1 = ending o (w.output? layout x) ∧
      memory (outcome (w.writeOutput layout x b)).2.world
        = o.putAll (w.output? layout x).toList (memory b.world) :=
  outcome_write h (layout.prepare x.path x.content).1
    { b with events := b.events ++ (layout.prepare x.path x.content).2 }

/-- The files that the outputs become, without those that are not written. -/
def given (w : Writer σ) (layout : Layout) (os : List OutputFile) : List OutputFile :=
  os.filterMap (w.output? layout)

theorem given_cons_none {layout : Layout} {x : OutputFile} (h : w.output? layout x = none)
    (os : List OutputFile) : w.given layout (x :: os) = w.given layout os := List.filterMap_cons_none h

theorem given_cons_some {layout : Layout} {x f : OutputFile} (h : w.output? layout x = some f)
    (os : List OutputFile) : w.given layout (x :: os) = f :: w.given layout os :=
  List.filterMap_cons_some h

/-- All results are there, or the first file that something stands in the way of tells what. -/
theorem mapM_ending (layout : Layout) (os : List OutputFile) :
    os.mapM (fun x => ending o (w.output? layout x)) =
      match (w.given layout os).findSome? o.against? with
      | some e => .error (.files e)
      | none => .ok (os.map (w.output? layout)) := by
  induction os with
  | nil => rfl
  | cons x os ih =>
      rw [List.mapM_cons, ih, List.map_cons]
      cases hx : w.output? layout x with
      | none =>
          rw [given_cons_none hx]
          cases (w.given layout os).findSome? o.against? <;> rfl
      | some f =>
          rw [given_cons_some hx, List.findSome?_cons, ending]
          cases o.against? f with
          | some e => rfl
          | none => cases (w.given layout os).findSome? o.against? <;> rfl

/-! ## All outputs -/

/-- Writes all recorded outputs in the order in which they are listed with their numbers; gives what was
    written. -/
def writeInOrder (w : Writer σ) (layout : Layout) (order : List (OutputFile × Nat)) :
    WorkM σ (PathMap Text) := do
  return byPlace (← WorkM.runInOrder (w.writeOutput layout) order)

theorem writeInOrder_zipIdx (w : Writer σ) (layout : Layout) (os : List OutputFile) (b : Workbench σ) :
    outcome (w.writeInOrder layout os.zipIdx b) = outcome (w.writeOutputs layout os b) := by
  rw [writeInOrder, writeOutputs, outcome_bind, outcome_bind, WorkM.runInOrder_zipIdx]

/-- Each output is written for itself: the others neither help nor hinder it. -/
structure Isolates (o : Obstacles) (fs : List OutputFile) (m m' : Memory)
    (r : Except BuildError (PathMap Text)) : Prop where
  /-- Whatever nothing stands in the way of is written. -/
  written : ∀ f ∈ fs, o.against? f = none → m'.files.get? f.path = some f.content
  /-- At all other places the files are as they were. -/
  others : ∀ q, (∀ f ∈ fs, o.against? f = none → f.path.same q = false) →
    m'.files.get? q = m.files.get? q
  /-- The first file that something stands in the way of tells what. -/
  failed : ∀ e, fs.findSome? o.against? = some e → r = .error (.files e)
  /-- If there is none, the result lists the files, and nothing else. -/
  succeeded : fs.findSome? o.against? = none →
    ∃ map, r = .ok map ∧ ∀ p t, (p, t) ∈ map.entries ↔ (⟨p, t⟩ : OutputFile) ∈ fs

/-- Two runs that start with the memory `m` leave the same: the same files, and the same directories but at
    the places that the outputs tear. -/
structure Agrees (o : Obstacles) (m : Memory) (fs : List OutputFile) (m₁ m₂ : Memory) : Prop where
  files : ∀ q, m₁.files.get? q = m₂.files.get? q
  directories : ∀ q, ¬ o.Torn m fs q → m₁.dirs.contains q = m₂.dirs.contains q

/-- Outputs at different places are written to different files. -/
theorem pairwise_of_nodup {w : Writer σ} {layout : Layout} {os : List OutputFile}
    (h : ((w.given layout os).map (·.path)).Nodup) :
    (w.given layout os).Pairwise fun f g => f.path.same g.path = false := by
  have hnormal : ∀ f ∈ w.given layout os, f.path.normalize = f.path := by
    intro f hf
    obtain ⟨x, -, hx⟩ := List.mem_filterMap.mp hf
    unfold output? written? at hx
    split at hx
    · exact nomatch hx
    · split at hx
      · obtain rfl := Option.some.inj hx
        exact Path.normalize_normalize _
      · exact nomatch hx
  refine (List.pairwise_map.mp h).imp_of_mem fun {f g} hf hg hne => ?_
  by_contra hs
  exact hne (Path.eq_of_same (hnormal f hf) (hnormal g hg) (by simpa using hs))

/-- What a run in any order leaves and tells. -/
theorem outcome_writeInOrder (h : Obstructed w.files memory o) (layout : Layout) {os : List OutputFile}
    {order : List (OutputFile × Nat)} (horder : order.Perm os.zipIdx) (b : Workbench σ) :
    (outcome (w.writeInOrder layout order b)).1
        = (match (w.given layout os).findSome? o.against? with
          | some e => .error (.files e)
          | none => .ok (byPlace (os.map (w.output? layout)))) ∧
      memory (outcome (w.writeInOrder layout order b)).2.world
        = o.putAll (w.given layout (order.map (·.1))) (memory b.world) := by
  obtain ⟨hend, hworld⟩ := WorkM.outcome_runInOrder (fun b => memory b.world)
    (outcome_writeOutput h layout) horder b
  rw [mapM_ending] at hend
  have hfold : ∀ (xs : List OutputFile) (m : Memory),
      xs.foldl (fun m x => o.putAll (w.output? layout x).toList m) m = o.putAll (w.given layout xs) m := by
    intro xs
    induction xs with
    | nil => exact fun _ => rfl
    | cons x xs ih =>
        intro m
        rw [List.foldl_cons, ih]
        cases hx : w.output? layout x with
        | none => rw [given_cons_none hx]; rfl
        | some f => rw [given_cons_some hx]; rfl
  rw [hfold] at hworld
  rw [writeInOrder, outcome_bind]
  cases hrun : outcome (WorkM.runInOrder (w.writeOutput layout) order b) with
  | mk r b' =>
      rw [hrun] at hend hworld
      dsimp only at hend hworld
      rw [hend]
      cases (w.given layout os).findSome? o.against? <;> exact ⟨rfl, hworld⟩

/-- The map of written files has an entry for each, if they are at different places. -/
theorem mem_byPlace {layout : Layout} {os : List OutputFile}
    (h : (w.given layout os).Pairwise fun f g => f.path.same g.path = false) (p : Path) (t : Text) :
    (p, t) ∈ (byPlace (os.map (w.output? layout))).entries ↔ (⟨p, t⟩ : OutputFile) ∈ w.given layout os := by
  have hfiles : (os.map (w.output? layout)).filterMap id = w.given layout os := by
    rw [List.filterMap_map, given]
    rfl
  rw [byPlace, hfiles, (PathMap.perm_ofList (List.pairwise_map.mpr h)).mem_iff, List.mem_map]
  constructor
  · rintro ⟨f, hf, he⟩
    obtain ⟨rfl, rfl⟩ := Prod.mk.inj he
    exact hf
  · exact fun hf => ⟨_, hf, rfl⟩

/-- In another order of the outputs the same files are written. -/
theorem perm_given {order : List (OutputFile × Nat)} {os : List OutputFile} (h : order.Perm os.zipIdx)
    (layout : Layout) : (w.given layout (order.map (·.1))).Perm (w.given layout os) := by
  have hfiles := (h.map (·.1)).filterMap (w.output? layout)
  rwa [List.zipIdx_map_fst] at hfiles

/-- Any of the written outputs may come first. -/
theorem exists_order_first {layout : Layout} {os : List OutputFile} {f : OutputFile}
    (hf : f ∈ w.given layout os) :
    ∃ order : List (OutputFile × Nat), order.Perm os.zipIdx ∧
      ∃ rest, w.given layout (order.map (·.1)) = f :: rest ∧ ∀ g ∈ rest, g ∈ w.given layout os := by
  obtain ⟨x, hx, hxf⟩ := List.mem_filterMap.mp hf
  obtain ⟨i, hi⟩ : ∃ i, (x, i) ∈ os.zipIdx := by
    obtain ⟨n, hn, rfl⟩ := List.mem_iff_getElem.mp hx
    exact ⟨n, List.mk_mem_zipIdx_iff_getElem?.mpr (List.getElem?_eq_getElem hn)⟩
  obtain ⟨front, back, hsplit⟩ := List.append_of_mem hi
  have hperm : ((x, i) :: (front ++ back)).Perm os.zipIdx := by
    rw [hsplit]
    exact List.perm_middle.symm
  have hfirst : w.given layout (((x, i) :: (front ++ back)).map (·.1))
      = f :: w.given layout ((front ++ back).map (·.1)) := by
    rw [List.map_cons]
    exact given_cons_some hxf _
  refine ⟨_, hperm, _, hfirst, fun g hg => (perm_given hperm layout).mem_iff.mp ?_⟩
  rw [hfirst]
  exact List.mem_cons_of_mem _ hg

/-- At a torn place there is a directory after some orders, and none after others. -/
theorem exists_orders_of_torn (h : Obstructed w.files memory o) (layout : Layout) {os : List OutputFile}
    {b : Workbench σ} (hclosed : (memory b.world).Closed) {q : Path}
    (htorn : o.Torn (memory b.world) (w.given layout os) q) :
    ∃ order order' : List (OutputFile × Nat), order.Perm os.zipIdx ∧ order'.Perm os.zipIdx ∧
      (memory (outcome (w.writeInOrder layout order b)).2.world).dirs.contains q = true ∧
      (memory (outcome (w.writeInOrder layout order' b)).2.world).dirs.contains q = false := by
  obtain ⟨⟨f, hf, hfree, hplace⟩, ⟨g, hg, hbrings⟩, -⟩ := id htorn
  obtain ⟨order, horder, rest, hgiven, -⟩ := exists_order_first hg
  obtain ⟨order', horder', rest', hgiven', hrest'⟩ := exists_order_first hf
  refine ⟨order, order', horder, horder', ?_, ?_⟩
  · rw [(outcome_writeInOrder h layout horder b).2, hgiven]
    exact Obstacles.contains_putAll_cons hclosed hbrings rest
  · rw [(outcome_writeInOrder h layout horder' b).2, hgiven']
    exact Obstacles.not_contains_putAll_cons hclosed htorn hfree hplace hf hrest'

/-- **Outputs are written in any order.**  If the outputs go to different places, and the store either
    always writes a file or always refuses it, then each output is written for itself, and in every order the
    run ends as it does when the outputs are taken as they come: with the same result, the same files, and the
    same directories but at torn places.  At a torn place there is a directory after some orders and none
    after others, so nothing more can be said; and no place is torn by outputs of which none is refused. -/
theorem writeOutputs_in_any_order (h : Obstructed w.files memory o) (layout : Layout)
    {os : List OutputFile} (hplaces : ((w.given layout os).map (·.path)).Nodup) {b : Workbench σ}
    (hclosed : (memory b.world).Closed) :
    (∀ order : List (OutputFile × Nat), order.Perm os.zipIdx →
      ∃ r b₁ b₂, outcome (w.writeInOrder layout order b) = (r, b₁) ∧
        outcome (w.writeOutputs layout os b) = (r, b₂) ∧
        Isolates o (w.given layout os) (memory b.world) (memory b₁.world) r ∧
        Agrees o (memory b.world) (w.given layout os) (memory b₁.world) (memory b₂.world)) ∧
    (∀ q, o.Torn (memory b.world) (w.given layout os) q →
      ∃ order order' : List (OutputFile × Nat), order.Perm os.zipIdx ∧ order'.Perm os.zipIdx ∧
        (memory (outcome (w.writeInOrder layout order b)).2.world).dirs.contains q = true ∧
        (memory (outcome (w.writeInOrder layout order' b)).2.world).dirs.contains q = false) ∧
    ((∀ f ∈ w.given layout os, o.against? f = none) →
      ∀ q, ¬ o.Torn (memory b.world) (w.given layout os) q) := by
  refine ⟨fun order horder => ?_, fun q htorn => exists_orders_of_torn h layout hclosed htorn,
    fun hfree q => Obstacles.not_torn hfree _ q⟩
  obtain ⟨hend, hworld⟩ := outcome_writeInOrder h layout horder b
  obtain ⟨hend', hworld'⟩ := outcome_writeInOrder h layout (.refl os.zipIdx) b
  rw [writeInOrder_zipIdx] at hend' hworld'
  rw [List.zipIdx_map_fst] at hworld'
  have hpairwise := pairwise_of_nodup hplaces
  have hperm : (w.given layout os).Perm (w.given layout (order.map (·.1))) := (perm_given horder layout).symm
  have hsame (q : Path) := Obstacles.putAll_perm (o := o) hclosed hperm hpairwise q
  refine ⟨(outcome (w.writeInOrder layout order b)).1, (outcome (w.writeInOrder layout order b)).2,
    (outcome (w.writeOutputs layout os b)).2, rfl, Prod.ext (hend'.trans hend.symm) rfl, ?_, ?_⟩
  · constructor
    case written =>
      intro f hf hfree
      rw [hworld, ← (hsame f.path).1]
      exact Obstacles.get?_putAll_of_mem hpairwise hf hfree _
    case others =>
      intro q hq
      rw [hworld, ← (hsame q).1]
      exact Obstacles.get?_putAll_of_forall hq _
    case failed =>
      intro e he
      rw [hend, he]
    case succeeded =>
      intro hnone
      rw [hend, hnone]
      exact ⟨_, rfl, mem_byPlace hpairwise⟩
  · rw [hworld, hworld']
    constructor
    · exact fun q => (hsame q).1.symm
    · exact fun q hq => ((hsame q).2 hq).symm

/-! ### Backwards -/

/-- A directory that cannot be made and a file that cannot be written. -/
def refusals : Obstacles where
  directory p := if p = "/p/dist/locked" then some (.denied p) else none
  file p := if p = "/p/dist/ui/b.d.ts" then some (.system .isDirectory) else none
  makes _ := false

/-- A writer that is refused some files, leaves one out and writes one to another place. -/
def refusedWriter : Writer Memory where
  files := refusals.store
  hooks :=
    { beforeWrite := fun f =>
        if f.path = "/p/dist/secret.d.ts" then .skip
        else if f.path = "/p/dist/old.d.ts" then .change (some "/p/dist/lib/new.d.ts") none
        else .keep }
  outDir := "/p/dist"
  strict := true
  detailed := true

/-- Records below the sources of a project. -/
def projectLayout : Layout where
  steps := {}
  cleanComponents := false
  currentDir := "/p/src"
  publicRoot := "/p/src"
  entryRoot := "/p/src"
  outDir := "/p/dist"

def projectRecords : List OutputFile :=
  [⟨"/p/src/a.d.ts", "export declare const a: 1;\n"⟩, ⟨"/p/src/ui/b.d.ts", "export declare const b: 2;\n"⟩,
    ⟨"/p/src/secret.d.ts", "export declare const s: 3;\n"⟩,
    ⟨"/p/src/locked/c.d.ts", "export declare const c: 4;\n"⟩,
    ⟨"/p/src/old.d.ts", "export declare const d: 5;\n"⟩]

/-- A bench with a file that is there already. -/
def projectBench : Workbench Memory where
  world := .ofFiles [("/p/dist/ui/b.d.ts", "// kept\n")]

/-- Records of which two are refused, taken from the last to the first. -/
theorem writeOutputs_in_any_order_backwards :
    (Obstructed refusedWriter.files id refusals ∧
      ((refusedWriter.given projectLayout projectRecords).map (·.path)).Nodup ∧
      projectRecords.zipIdx.reverse.Perm projectRecords.zipIdx ∧ projectBench.world.Closed) ∧
    ∃ r b₁ b₂,
      outcome (refusedWriter.writeInOrder projectLayout projectRecords.zipIdx.reverse projectBench)
        = (r, b₁) ∧
      outcome (refusedWriter.writeOutputs projectLayout projectRecords projectBench) = (r, b₂) ∧
      Isolates refusals (refusedWriter.given projectLayout projectRecords) projectBench.world b₁.world r ∧
      Agrees refusals projectBench.world (refusedWriter.given projectLayout projectRecords)
        b₁.world b₂.world ∧
      r = .error (.files (.system .isDirectory)) ∧
      b₁.world.files.get? "/p/dist/lib/new.d.ts" = some "export declare const d: 5;\n" ∧
      ∀ q, ¬ refusals.Torn projectBench.world (refusedWriter.given projectLayout projectRecords) q := by
  have hstore : Obstructed refusedWriter.files id refusals := Files.obstructed_store refusals
  obtain ⟨hplaces, hapart⟩ : ((refusedWriter.given projectLayout projectRecords).map (·.path)).Nodup ∧
      ∀ f ∈ refusedWriter.given projectLayout projectRecords,
        ∀ g ∈ refusedWriter.given projectLayout projectRecords,
          f.path.same g.path.parentDir = false := by
    unfold projectRecords
    repeat rw [Text.toList_literal rfl]
    decide +kernel
  have hclosed : projectBench.world.Closed := Memory.closed_ofFiles _
  obtain ⟨r, b₁, b₂, hone, husual, hisolates, hagrees⟩ := (writeOutputs_in_any_order hstore projectLayout
    hplaces hclosed).1 _ (List.reverse_perm _)
  refine ⟨⟨hstore, hplaces, List.reverse_perm _, hclosed⟩, r, b₁, b₂, hone, husual, hisolates, hagrees, ?_,
    ?_, ?_⟩
  · exact hisolates.failed _ (by decide +kernel)
  · exact hisolates.written ⟨"/p/dist/lib/new.d.ts", "export declare const d: 5;\n"⟩ (by decide +kernel)
      (by decide +kernel)
  · intro q htorn
    obtain ⟨f, hf, g, hg, ⟨-, hplace⟩, -, hdir⟩ := htorn.tears
    rw [Path.same_comm, ← Path.same_congr hdir, Path.same_comm, hapart f hf g hg] at hplace
    exact nomatch hplace

/-! ### What the order shows, and what is left out -/

/-- One file is always refused, before the directories above it are made. -/
def tornRefusals : Obstacles where
  file p := if p = "/p/dist/x/y.d.ts" then some (.denied p) else none
  makes _ := false

/-- A writer that is refused one file. -/
def tornWriter : Writer Memory where
  files := tornRefusals.store
  hooks := {}
  outDir := "/p/dist"
  strict := true
  detailed := true

/-- An output, and one below it that is refused. -/
def tornRecords : List OutputFile := [⟨"/p/src/x", "one"⟩, ⟨"/p/src/x/y.d.ts", "two"⟩]

/-- A writer to files in memory whose hook sends one file out of the output directory. -/
def strayWriter : Writer Memory where
  files := Memory.store
  hooks :=
    { beforeWrite := fun f =>
        if f.path = "/p/dist/util.d.ts" then .change (some "/p/util.d.ts") none else .keep }
  outDir := "/p/dist"
  strict := true
  detailed := true

/-- No files yet. -/
def emptyBench : Workbench Memory where
  world := {}

/-- Whether `/p/dist/x` is a directory in the end depends on which of two outputs is written first, although
    the one is always written and the other always refused.  And an output that nothing refuses and no hook
    skips is not written if it would leave the output directory. -/
theorem directories_depend_on_order :
    ((Obstructed tornWriter.files id tornRefusals ∧
        ((tornWriter.given projectLayout tornRecords).map (·.path)).Nodup ∧
        tornRecords.zipIdx.reverse.Perm tornRecords.zipIdx ∧ emptyBench.world.Closed) ∧
      (outcome (tornWriter.writeInOrder projectLayout tornRecords.zipIdx emptyBench)).2.world.dirs.contains
        "/p/dist/x" = false ∧
      (outcome (tornWriter.writeInOrder projectLayout tornRecords.zipIdx.reverse emptyBench)).2.world.dirs.contains
        "/p/dist/x" = true) ∧
    (Obstructed strayWriter.files id {} ∧
      strayWriter.hooks.beforeWrite ⟨"/p/dist/util.d.ts", "util"⟩ = .change (some "/p/util.d.ts") none ∧
      (outcome (strayWriter.writeOutputs projectLayout [⟨"/p/src/util.d.ts", "util"⟩] emptyBench)).1.map
        PathMap.entries = .ok [] ∧
      (outcome (strayWriter.writeOutputs projectLayout [⟨"/p/src/util.d.ts", "util"⟩] emptyBench)).2.world.files.get?
        "/p/util.d.ts" = none) := by
  have hstore : Obstructed tornWriter.files id tornRefusals := Files.obstructed_store tornRefusals
  have hperm : tornRecords.zipIdx.reverse.Perm tornRecords.zipIdx := List.reverse_perm _
  have hrun (order : List (OutputFile × Nat)) (horder : order.Perm tornRecords.zipIdx) :=
    (outcome_writeInOrder hstore projectLayout horder emptyBench).2
  refine ⟨⟨⟨hstore, by decide +kernel, hperm, Memory.closed_ofFiles []⟩, ?_, ?_⟩,
    Files.obstructed_memory, by decide +kernel, by decide +kernel, by decide +kernel⟩
  · rw [show (outcome (tornWriter.writeInOrder projectLayout tornRecords.zipIdx emptyBench)).2.world = _
      from hrun _ (.refl _)]
    decide +kernel
  · rw [show (outcome (tornWriter.writeInOrder projectLayout tornRecords.zipIdx.reverse emptyBench)).2.world = _
      from hrun _ hperm]
    decide +kernel

end Writer

end Typings
