import Typings.Proofs.Outcome
import Typings.Proofs.Output.Writes
import Typings.Proofs.Path.Below
import Typings.Proofs.Path.Map
import Typings.Rollup.Engine

/-!
# `Journal` — what is done to the files of a build

A journal beside the world tells every write and every removal, with whether it succeeded, and every
request to the tool that rolls up.  Which entries work adds to it can be said for work that fails as well
as for work that succeeds.

* `FileAct`: the entries.
* `Files.Journaled`, `FileStore.journaled`: stores that keep a journal; every store can.
* `Adds.files`, `Adds.onWorld`, `Adds.runAll`: the entries that work on a bench adds.
* `InRounds`: entries that go through some directories in turn, any number of times.
* `Writer.Attempts`, `Writer.CopiesTo`: entries that are writes the writer allows.
* `adds_write`, `adds_writeOutputs`, `adds_replicate`: what the writer adds.
-/

namespace Typings

open Files (FileStore StoreM)

/-- What is done to the files of a build. -/
inductive FileAct where
  | write (file : OutputFile) (done : Bool)
  | remove (path : Path) (done : Bool)
  /-- The tool is asked to roll up the declarations from `entry` on; it puts the result at `result`. -/
  | rollUp (entry result : Path)
deriving DecidableEq, Repr

variable {σ α β : Type} {journal : σ → List FileAct}

/-! ## Stores with a journal -/

/-- Writes and removals are told; directories are not. -/
structure Files.Journaled (files : FileStore σ) (journal : σ → List FileAct) : Prop where
  write : ∀ p t, Adds journal (files.write p t) fun r l => l = [.write ⟨p, t⟩ r.isOk]
  remove : ∀ p, Adds journal (files.remove p) fun r l => l = [.remove p r.isOk]
  createDirs : ∀ p, Adds.Nothing journal (files.createDirs p)
  removeDir : ∀ p, Adds.Nothing journal (files.removeDir p)

/-- An operation on the first part of a pair, told in the second. -/
def Files.told {ε : Type} (op : EStateM ε σ α) (act : Bool → FileAct) :
    EStateM ε (σ × List FileAct) α := fun (w, l) =>
  match op w with
  | .ok a w => .ok a (w, l ++ [act true])
  | .error e w => .error e (w, l ++ [act false])

/-- A store with a journal beside it. -/
def Files.FileStore.journaled (files : FileStore σ) : FileStore (σ × List FileAct) :=
  { files.zoom with
    write := fun p t => Files.told (files.write p t) (.write ⟨p, t⟩)
    remove := fun p => Files.told (files.remove p) (.remove p) }

/-- An operation that is told to the journal adds one act, with whether it went through. -/
theorem adds_told {ε : Type} (op : EStateM ε σ α) (act : Bool → FileAct) :
    Adds Prod.snd (Files.told op act) fun r l => l = [act r.isOk] := by
  rintro ⟨w, l⟩
  rw [Files.told]
  cases op w <;> exact ⟨_, rfl, rfl⟩

/-- Work on the store alone leaves the journal beside it as it was. -/
theorem nothing_inFirst (op : StoreM σ α) :
    Adds.Nothing (Prod.snd : σ × List FileAct → List FileAct) (FileStore.zoom.inFirst op) := by
  rintro ⟨w, l⟩
  rw [FileStore.zoom.inFirst]
  cases op w <;> rfl

/-- Every store can keep a journal. -/
theorem Files.journaled_journaled (files : FileStore σ) : Files.Journaled files.journaled Prod.snd where
  write _ _ := adds_told _ _
  remove _ := adds_told _ _
  createDirs _ := nothing_inFirst _
  removeDir _ := nothing_inFirst _

/-- The walk through a directory's children adds no act if no call for a child does. -/
theorem nothing_pruneChildren {entry : Type} {log : σ → List entry} {prune : Path → StoreM σ Bool}
    (h : ∀ p, Adds.Nothing log (prune p)) (children : List Files.DirEntry) :
    Adds.Nothing log (FileStore.pruneChildren prune children) := by
  induction children with
  | nil => exact .pure _
  | cons child rest ih =>
      rw [FileStore.pruneChildren]
      split
      · exact .bind (h _) fun _ => .bind ih fun _ => .pure _
      · exact .bind (.pure _) fun _ => .bind ih fun _ => .pure _

/-- Clearing empty directories does no more than removing them. -/
theorem nothing_prune {entry : Type} {log : σ → List entry} {files : FileStore σ}
    (h : ∀ p, Adds.Nothing log (files.removeDir p)) (dir : Path) :
    Adds.Nothing log (files.prune dir) := by
  have hwithin (fuel : Nat) (dir : Path) : Adds.Nothing log (files.pruneWithin fuel dir) := by
    induction fuel generalizing dir with
    | zero => exact .pure _
    | succ fuel ih =>
        rw [FileStore.pruneWithin]
        refine .bind .get fun world => ?_
        split
        · exact .pure _
        · split
          · exact .throw _
          · refine .bind (nothing_pruneChildren ih _) fun emptied => ?_
            split
            · exact .bind (h _) fun _ => .pure _
            · exact .pure _
  exact .bind .get fun world => hwithin _ _

/-! ## Work on a bench -/

/-- The journal of the world on a bench. -/
abbrev onBench (journal : σ → List FileAct) (b : Workbench σ) : List FileAct := journal b.world

namespace Adds

theorem files {op : StoreM σ α} {l : Bool → List FileAct}
    (h : Adds journal op fun r k => k = l r.isOk) :
    Adds (onBench journal) (WorkM.files op) fun r k => k = l r.isOk := by
  intro b
  obtain ⟨k, hk, hl⟩ := h b.world
  rw [WorkM.files]
  cases hop : op b.world with
  | ok a w =>
      rw [hop] at hk hl
      exact ⟨k, hk, hl⟩
  | error e w =>
      rw [hop] at hk hl
      exact ⟨k, hk, hl⟩

theorem onWorld {op : EStateM BuildError σ α} {post : Except BuildError α → List FileAct → Prop}
    (h : Adds journal op post) : Adds (onBench journal) (WorkM.onWorld op) post := by
  intro b
  obtain ⟨k, hk, hl⟩ := h b.world
  rw [WorkM.onWorld]
  cases hop : op b.world with
  | ok a w =>
      rw [hop] at hk hl
      exact ⟨k, hk, hl⟩
  | error e w =>
      rw [hop] at hk hl
      exact ⟨k, hk, hl⟩

namespace Nothing

theorem files {op : StoreM σ α} (h : Nothing journal op) :
    Nothing (onBench journal) (WorkM.files op) := by
  intro b
  have hb := h b.world
  rw [WorkM.files]
  cases hop : op b.world with
  | ok a w =>
      rw [hop] at hb
      exact hb
  | error e w =>
      rw [hop] at hb
      exact hb

theorem report (e : Event) : Nothing (onBench journal) (WorkM.report e) := fun _ => rfl

theorem reportAll (es : List Event) : Nothing (onBench journal) (WorkM.reportAll es) := fun _ => rfl

theorem phase (name : Text) : Nothing (onBench journal) (WorkM.phase name) := fun _ => rfl

theorem world : Nothing (onBench journal) (WorkM.world : WorkM σ σ) := fun _ => rfl

theorem ofExcept (r : Except BuildError α) : Nothing (onBench journal) (WorkM.ofExcept r : WorkM σ α) := by
  intro b
  cases r <;> rfl

end Nothing

/-- A task and independent others: all run, and the first failure counts. -/
theorem outcome_runAll_cons (task : α → WorkM σ β) (a : α) (as : List α) (b : Workbench σ) :
    outcome (WorkM.runAll task (a :: as) b) =
      let (x, b) := outcome (task a b)
      let (xs, b) := outcome (WorkM.runAll task as b)
      (do return (← x) :: (← xs), b) := by
  simp only [WorkM.runAll]
  cases task a b with
  | ok x b =>
      dsimp only [outcome]
      cases WorkM.runAll task as b <;> rfl
  | error e b =>
      dsimp only [outcome]
      cases WorkM.runAll task as b <;> rfl

/-- How a task ends, and what it adds. -/
structure Ending (α β : Type) where
  task : α
  result : Except BuildError β
  added : List FileAct

/-- Independent tasks: what each adds, in order.  The results are there if all succeed. -/
theorem runAll {task : α → WorkM σ β} {post : α → Except BuildError β → List FileAct → Prop}
    (h : ∀ a, Adds (onBench journal) (task a) (post a)) (as : List α) :
    Adds (onBench journal) (WorkM.runAll task as) fun r l =>
      ∃ ends : List (Ending α β), ends.map (·.task) = as ∧ l = ends.flatMap (·.added) ∧
        (∀ e ∈ ends, post e.task e.result e.added) ∧
        ∀ xs, r = .ok xs → ends.map (·.result) = xs.map .ok := by
  induction as with
  | nil =>
      refine (Adds.pure []).mono ?_
      rintro r l ⟨rfl, rfl⟩
      exact ⟨[], rfl, rfl, by simp, by rintro xs ⟨⟩; rfl⟩
  | cons a as ih =>
      intro b
      rw [outcome_runAll_cons]
      obtain ⟨l, hl, hpost⟩ := h a b
      cases htask : outcome (task a b) with
      | mk x b₁ =>
          rw [htask] at hl hpost
          obtain ⟨l', hl', ends, rfl, rfl, hends, hok⟩ := ih b₁
          refine ⟨l ++ ends.flatMap (·.added), ?_, ⟨a, x, l⟩ :: ends, rfl, rfl, ?_, ?_⟩
          · exact hl'.trans ((congrArg (· ++ _) hl).trans (List.append_assoc _ _ _))
          · exact List.forall_mem_cons.mpr ⟨hpost, hends⟩
          · -- All results are there only if this task and the others have succeeded.
            intro xs hxs
            dsimp only at hxs
            cases x with
            | error e => cases hxs
            | ok y =>
                cases hrest : (outcome (WorkM.runAll task (ends.map (·.task)) b₁)).1 with
                | error e =>
                    rw [hrest] at hxs
                    cases hxs
                | ok ys =>
                    rw [hrest] at hxs
                    cases hxs
                    rw [List.map_cons, List.map_cons, hok ys hrest]

/-- Work that adds nothing, in front of more. -/
theorem after_nothing {op : WorkM σ α} {k : α → WorkM σ β}
    {post : Except BuildError β → List FileAct → Prop} (h : Nothing (onBench journal) op)
    (hk : ∀ a, Adds (onBench journal) (k a) post) (he : ∀ e, post (.error e) []) :
    Adds (onBench journal) (op >>= k) post := by
  refine (nothing h).bind (fun a l hl => ?_) fun e l hl => ?_
  · rw [hl]
    exact hk a
  · rw [hl]
    exact he e

end Adds

/-! ## Directories in turn -/

/-- The entries of one step for each directory, in order. -/
inductive InTurn (P : Path → List FileAct → Prop) : List Path → List FileAct → Prop where
  | nil : InTurn P [] []
  | cons {dir : Path} {dirs : List Path} {l l' : List FileAct} (hdir : P dir l)
      (hdirs : InTurn P dirs l') : InTurn P (dir :: dirs) (l ++ l')

/-- What the acts of each directory satisfy may be weakened, one directory at a time. -/
theorem InTurn.mono {P Q : Path → List FileAct → Prop} {dirs : List Path} {l : List FileAct}
    (h : InTurn P dirs l) (hpq : ∀ dir ∈ dirs, ∀ l, P dir l → Q dir l) : InTurn Q dirs l := by
  induction h with
  | nil => exact .nil
  | cons hdir _ ih =>
      exact .cons (hpq _ List.mem_cons_self _ hdir) (ih fun dir hd => hpq dir (List.mem_cons_of_mem _ hd))

/-- What every act of each directory satisfies, every act of the row satisfies. -/
theorem InTurn.forall_mem {P : Path → List FileAct → Prop} {Q : FileAct → Prop} {dirs : List Path}
    {l : List FileAct} (h : InTurn P dirs l) (hq : ∀ dir l, P dir l → ∀ a ∈ l, Q a) : ∀ a ∈ l, Q a := by
  induction h with
  | nil => simp
  | cons hdir _ ih =>
      intro a ha
      exact (List.mem_append.mp ha).elim (hq _ _ hdir a) (ih a)

/-- The entries of rounds, each of which goes through all directories in turn. -/
def InRounds (P : Path → List FileAct → Prop) (dirs : List Path) (l : List FileAct) : Prop :=
  ∃ rounds : List (List FileAct), l = rounds.flatten ∧ ∀ round ∈ rounds, InTurn P dirs round

theorem InRounds.nil {P : Path → List FileAct → Prop} {dirs : List Path} : InRounds P dirs [] :=
  ⟨[], rfl, by simp⟩

/-- What the acts of each directory satisfy may be weakened in rounds too. -/
theorem InRounds.mono {P Q : Path → List FileAct → Prop} {dirs : List Path} {l : List FileAct}
    (h : InRounds P dirs l) (hpq : ∀ dir ∈ dirs, ∀ l, P dir l → Q dir l) : InRounds Q dirs l := by
  obtain ⟨rounds, rfl, hrounds⟩ := h
  exact ⟨rounds, rfl, fun round hr => (hrounds round hr).mono hpq⟩

/-- What every act of each directory satisfies, every act of all the rounds satisfies. -/
theorem InRounds.forall_mem {P : Path → List FileAct → Prop} {Q : FileAct → Prop} {dirs : List Path}
    {l : List FileAct} (h : InRounds P dirs l) (hq : ∀ dir l, P dir l → ∀ a ∈ l, Q a) : ∀ a ∈ l, Q a := by
  obtain ⟨rounds, rfl, hrounds⟩ := h
  intro a ha
  obtain ⟨round, hr, ha⟩ := List.mem_flatten.mp ha
  exact (hrounds round hr).forall_mem hq a ha

/-! ## The writer -/

namespace Writer

variable {w : Writer σ}

/-- Entries that are writes at folded places that the writer allows. -/
def Attempts (w : Writer σ) (l : List FileAct) : Prop :=
  ∀ a ∈ l, ∃ f done, a = .write f done ∧ f.path.normalize = f.path ∧ w.allows f.path = true

theorem Attempts.nil : w.Attempts [] := fun _ ha => absurd ha List.not_mem_nil

/-- Two rows of attempted writes in turn are a row of attempted writes. -/
theorem Attempts.append {l l' : List FileAct} (h : w.Attempts l) (h' : w.Attempts l') :
    w.Attempts (l ++ l') := fun a ha => (List.mem_append.mp ha).elim (h a) (h' a)

/-- A guarded write tells of one write at most, and of none only when it is refused before the store is asked.
    -/
theorem adds_put (h : Files.Journaled w.files journal) (f : OutputFile) :
    Adds (onBench journal) (w.put f) fun r l =>
      l = [] ∧ r.isOk = false ∨ l = [.write f r.isOk] := by
  have hwrite : Adds (onBench journal) (do
      WorkM.files (w.files.write f.path f.content)
      if w.detailed then WorkM.report (.fileWritten f.path)) fun r l => l = [.write f r.isOk] := by
    refine (Adds.files (l := fun done => [.write f done]) (h.write _ _)).bind (fun _ l hl => ?_)
      fun e l hl => hl
    split
    · exact fun b => ⟨[], (List.append_nil _).symm, by rw [hl]; rfl⟩
    · exact fun b => ⟨[], (List.append_nil _).symm, by rw [hl]; rfl⟩
  refine Adds.after_nothing .world (fun world => ?_) fun e => .inl ⟨rfl, rfl⟩
  by_cases hd : (!w.files.isThere world f.path.parentDir) = true
  · rw [if_pos hd]
    refine Adds.after_nothing (.files (h.createDirs _)) (fun _ => ?_) fun e => .inl ⟨rfl, rfl⟩
    exact hwrite.mono fun r l hl => .inr hl
  · rw [if_neg hd]
    exact hwrite.mono fun r l hl => .inr hl

/-- What writing a file adds: the write of the file that it becomes, if there is one. -/
theorem adds_write (h : Files.Journaled w.files journal) (f : OutputFile) :
    Adds (onBench journal) (w.write f) fun r l =>
      w.Attempts l ∧ l.length ≤ 1 ∧
        ∀ x, r = .ok x → x = w.written? f ∧ l = x.toList.map (.write · true) := by
  unfold write written?
  cases (w.hooks.beforeWrite f).apply f with
  | none =>
      refine (Adds.pure none).mono ?_
      rintro r l ⟨rfl, rfl⟩
      exact ⟨.nil, Nat.zero_le 1, by rintro x ⟨⟩; exact ⟨rfl, rfl⟩⟩
  | some f =>
      dsimp only
      let g : OutputFile := { f with path := f.path.normalize }
      by_cases ha : w.allows f.path.normalize = true
      · rw [if_pos ha, if_pos ha]
        have hattempt (done : Bool) : w.Attempts [.write g done] := by
          intro a ha'
          rw [List.mem_singleton.mp ha']
          exact ⟨g, done, rfl, Path.normalize_normalize _, ha⟩
        refine (adds_put h g).bind (fun _ l hl => ?_) fun e l hl => ?_
        · obtain ⟨-, hf⟩ | rfl := hl
          · cases hf
          · refine (Adds.pure (some g)).mono ?_
            rintro r l ⟨rfl, rfl⟩
            exact ⟨hattempt true, Nat.le_refl 1, by rintro x ⟨⟩; exact ⟨rfl, rfl⟩⟩
        · obtain ⟨rfl, -⟩ | rfl := hl
          · exact ⟨.nil, Nat.zero_le 1, by rintro x ⟨⟩⟩
          · exact ⟨hattempt false, Nat.le_refl 1, by rintro x ⟨⟩⟩
      · rw [if_neg ha, if_neg ha]
        refine Adds.after_nothing (.report _) (fun _ => ?_) fun e =>
          ⟨.nil, Nat.zero_le 1, by rintro x ⟨⟩⟩
        refine (Adds.pure none).mono ?_
        rintro r l ⟨rfl, rfl⟩
        exact ⟨.nil, Nat.zero_le 1, by rintro x ⟨⟩; exact ⟨rfl, rfl⟩⟩

/-- The files at the places of a map have been written. -/
def Written (l : List FileAct) (m : PathMap Text) : Prop :=
  ∀ p ∈ m.keys, ∃ t, FileAct.write ⟨p, t⟩ true ∈ l

/-- Longer acts account for whatever shorter ones did. -/
theorem Written.mono {l l' : List FileAct} {m : PathMap Text} (h : Written l m) (hl : l ⊆ l') :
    Written l' m := by
  intro p hp
  obtain ⟨t, ht⟩ := h p hp
  exact ⟨t, hl ht⟩

/-- A write that went through accounts for its place in the map. -/
theorem Written.insert {l : List FileAct} {m : PathMap Text} (h : Written l m) {f : OutputFile}
    (hf : .write f true ∈ l) : Written l (m.insert f.path f.content) := by
  intro p hp
  rcases PathMap.mem_keys_insert hp with rfl | hp
  · exact ⟨f.content, hf⟩
  · exact h p hp

/-- The map of what was written is accounted for when each of its files was. -/
theorem written_byPlace {l : List FileAct} {xs : List (Option OutputFile)}
    (h : ∀ f, some f ∈ xs → .write f true ∈ l) : Written l (byPlace xs) := by
  intro p hp
  have hmem := PathMap.mem_keys_ofList hp
  rw [List.map_map] at hmem
  obtain ⟨f, hf, rfl⟩ := List.mem_map.mp hmem
  obtain ⟨x, hx, rfl⟩ := List.mem_filterMap.mp hf
  exact ⟨f.content, h f hx⟩

/-- What writing all recorded outputs adds: allowed writes, and among them the file of every output if
    all writes succeed. -/
theorem adds_writeOutputs (h : Files.Journaled w.files journal) (layout : Layout)
    (os : List OutputFile) :
    Adds (onBench journal) (w.writeOutputs layout os) fun r l =>
      w.Attempts l ∧ ∀ m, r = .ok m →
        Written l m ∧ ∀ o ∈ os, ∀ f ∈ w.output? layout o, .write f true ∈ l := by
  have htask (o : OutputFile) : Adds (onBench journal) (w.writeOutput layout o) fun r l =>
      w.Attempts l ∧ ∀ x, r = .ok x → x = w.output? layout o ∧ l = x.toList.map (.write · true) :=
    Adds.after_nothing (.reportAll _)
      (fun _ => (adds_write h _).mono fun r l hl => ⟨hl.1, hl.2.2⟩) fun e => ⟨.nil, by rintro x ⟨⟩⟩
  have hattempts (ends : List (Adds.Ending OutputFile (Option OutputFile)))
      (hends : ∀ e ∈ ends, w.Attempts e.added) : w.Attempts (ends.flatMap (·.added)) := by
    intro a ha
    obtain ⟨e, he, ha⟩ := List.mem_flatMap.mp ha
    exact hends e he a ha
  refine (Adds.runAll htask os).bind (fun xs l hl => ?_) ?_
  · refine (Adds.pure (byPlace xs)).mono ?_
    rintro r l' ⟨rfl, rfl⟩
    obtain ⟨ends, rfl, rfl, hends, hok⟩ := hl
    have hall := hok xs rfl
    -- Every task has succeeded, so what it gave is what it wrote.
    have hwrote {f : OutputFile} {e : Adds.Ending OutputFile (Option OutputFile)} (he : e ∈ ends)
        (hf : e.result = .ok (some f)) : .write f true ∈ ends.flatMap (·.added) := by
      refine List.mem_flatMap.mpr ⟨e, he, ?_⟩
      rw [((hends e he).2 _ hf).2]
      exact List.mem_cons_self
    rw [List.append_nil]
    refine ⟨hattempts ends fun e he => (hends e he).1, ?_⟩
    rintro m ⟨⟩
    refine ⟨written_byPlace fun f hf => ?_, fun o ho f hf => ?_⟩
    · have hmem : .ok (some f) ∈ ends.map (·.result) := by
        rw [hall]
        exact List.mem_map_of_mem hf
      obtain ⟨e, he, hresult⟩ := List.mem_map.mp hmem
      exact hwrote he hresult
    · obtain ⟨e, he, rfl⟩ := List.mem_map.mp ho
      have hmem : e.result ∈ xs.map Except.ok := by
        rw [← hall]
        exact List.mem_map_of_mem he
      obtain ⟨x, -, hx⟩ := List.mem_map.mp hmem
      refine hwrote he ?_
      rw [← hx, ((hends e he).2 x hx.symm).1]
      exact congrArg Except.ok hf
  · rintro e l ⟨ends, rfl, rfl, hends, -⟩
    exact ⟨hattempts ends fun e he => (hends e he).1, by rintro m ⟨⟩⟩

/-! ## Copies -/

/-- At most one write, which the writer of the directory allows. -/
def CopiesTo (w : Writer σ) (dir : Path) (l : List FileAct) : Prop :=
  { w with outDir := dir }.Attempts l ∧ l.length ≤ 1

/-- Copying nothing leaves no act, whatever the directories. -/
theorem inTurn_nil (dirs : List Path) : InTurn w.CopiesTo dirs [] := by
  induction dirs with
  | nil => exact .nil
  | cons dir dirs ih => exact .cons ⟨.nil, Nat.zero_le 1⟩ ih

/-- A copy into a directory leaves the acts that `Writer.CopiesTo` describes. -/
theorem adds_copyTo (h : Files.Journaled w.files journal) (f : OutputFile) (dir : Path) :
    Adds (onBench journal) (w.copyTo f dir) fun _ l => w.CopiesTo dir l := by
  have hwrite (g : OutputFile) := adds_write (w := { w with outDir := dir }) h g
  refine Adds.after_nothing (.reportAll _) (fun _ => ?_) fun e => ⟨.nil, Nat.zero_le 1⟩
  refine (hwrite _).bind (fun x l hl => ?_) fun e l hl => ⟨hl.1, hl.2.1⟩
  refine (Adds.pure _).mono ?_
  rintro r l' ⟨-, rfl⟩
  rw [List.append_nil]
  exact ⟨hl.1, hl.2.1⟩

/-- A file is copied to one directory after the other, until a copy fails. -/
theorem adds_copyToAll (h : Files.Journaled w.files journal) (f : OutputFile) (dirs : List Path) :
    Adds (onBench journal) (w.copyToAll f dirs) fun _ l => InTurn w.CopiesTo dirs l := by
  induction dirs with
  | nil =>
      refine (Adds.pure []).mono ?_
      rintro r l ⟨-, rfl⟩
      exact .nil
  | cons dir dirs ih =>
      refine (adds_copyTo h f dir).bind (fun copy l hl => ?_) fun e l hl => ?_
      · refine ih.bind (fun copies l' hl' => ?_) fun e l' hl' => .cons hl hl'
        refine (Adds.pure _).mono ?_
        rintro r l'' ⟨-, rfl⟩
        rw [List.append_nil]
        exact .cons hl hl'
      · rw [← List.append_nil l]
        exact .cons hl (inTurn_nil dirs)

/-- The files are copied independently, each to the directories in turn. -/
theorem adds_replicate (h : Files.Journaled w.files journal) (emitted : PathMap Text)
    (dirs : List Path) :
    Adds (onBench journal) (w.replicate emitted dirs) fun _ l => InRounds w.CopiesTo dirs l := by
  unfold replicate
  split
  · refine (Adds.pure []).mono ?_
    rintro r l ⟨-, rfl⟩
    exact .nil
  · have htask (e : Path × Text) := adds_copyToAll h ⟨e.1, e.2⟩ dirs
    have hrounds (ends : List (Adds.Ending (Path × Text) (List Path)))
        (hends : ∀ e ∈ ends, InTurn w.CopiesTo dirs e.added) :
        InRounds w.CopiesTo dirs (ends.flatMap (·.added)) :=
      ⟨ends.map (·.added), List.flatMap_def, List.forall_mem_map.mpr hends⟩
    refine (Adds.runAll htask emitted.entries).bind (fun xs l hl => ?_) ?_
    · refine (Adds.pure _).mono ?_
      rintro r l' ⟨-, rfl⟩
      obtain ⟨ends, -, rfl, hends, -⟩ := hl
      rw [List.append_nil]
      exact hrounds ends hends
    · rintro e l ⟨ends, -, rfl, hends, -⟩
      exact hrounds ends hends

end Writer

end Typings
