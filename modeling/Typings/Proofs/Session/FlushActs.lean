import Typings.DryRun.Engine
import Typings.Proofs.Output.Journal
import Typings.Proofs.Session.History

/-!
# `FlushActs` — what a session does to the files

Only a flush touches files.  It writes the recorded outputs and the root files, has the entries rolled
up, removes what is left over, and copies what remains.  What is left over is read off a map of the files
written so far, so all that a flush removes was written in the same flush.

* `Host.Journaled`: a session with a journal of what is done to its files.
* `FlushActs`: the entries of a flush, in the order in which it adds them.
* `adds_writeRecorded`: a flush adds such entries, whatever comes of it.
* `journal_call`: the other calls add none.
-/

namespace Typings

variable {σ π : Type} {journal : σ → List FileAct}

/-- The store keeps a journal, the tool that rolls up is told in it, and the compiler is not. -/
structure Host.Journaled (h : Host σ π) (journal : σ → List FileAct) : Prop where
  files : Files.Journaled h.files journal
  engine : ∀ e ∈ h.engine, ∀ r : RollupRequest,
    Adds journal (e.run r) fun _ l => l = [.rollUp r.entryPath r.outputPath]
  refresh : ∀ path c, journal (outcome (h.compiler.refresh path c)).2.1 = journal c.1

/-- The entry tells a rollup. -/
def FileAct.IsRollUp (a : FileAct) : Prop := ∃ entry result, a = .rollUp entry result

/-- The entry tells that a file is removed that was written before. -/
def FileAct.Removes (before : List FileAct) (a : FileAct) : Prop :=
  ∃ p t done, a = .remove p done ∧ .write ⟨p, t⟩ true ∈ before

/-! ## Root files -/

namespace RootFiles

variable {w : Writer σ}

theorem nothing_typesPath (r : RootFiles) : Adds.Nothing (onBench journal) (r.typesPath w) :=
  fun _ => rfl

theorem adds_insertPlans (r : RootFiles) (h : Files.Journaled w.files journal) (plans : List IndexPlan)
    {emitted : PathMap Text} {before : List FileAct} (hw : Writer.Written before emitted) :
    Adds (onBench journal) (r.insertPlans w emitted plans) fun r l =>
      w.Attempts l ∧ ∀ m, r = .ok m → Writer.Written (before ++ l) m := by
  induction plans generalizing emitted before with
  | nil =>
      refine (Adds.pure emitted).mono ?_
      rintro r l ⟨rfl, rfl⟩
      rw [List.append_nil]
      exact ⟨.nil, by rintro m ⟨⟩; exact hw⟩
  | cons plan plans ih =>
      rw [insertPlans]
      refine Adds.after_nothing .world (fun world => ?_) fun e => ⟨.nil, by rintro m ⟨⟩⟩
      split
      · exact ih hw
      · refine (Writer.adds_write h _).bind (fun x l hl => ?_) fun e l hl => ⟨hl.1, by rintro m ⟨⟩⟩
        obtain ⟨hattempts, -, hx⟩ := hl
        have hadded := (hx x rfl).2
        have hrest {emitted' : PathMap Text} (hw' : Writer.Written (before ++ l) emitted') :
            Adds (onBench journal) (r.insertPlans w emitted' plans) fun r l' =>
              w.Attempts (l ++ l') ∧ ∀ m, r = .ok m → Writer.Written (before ++ (l ++ l')) m := by
          refine (ih hw').mono fun r l' hl' => ⟨hattempts.append hl'.1, ?_⟩
          rw [← List.append_assoc]
          exact hl'.2
        have hw := hw.mono (List.subset_append_left before l)
        cases x with
        | none => exact hrest hw
        | some f =>
            refine hrest (hw.insert (List.mem_append_right _ ?_))
            rw [hadded]
            exact List.mem_cons_self

theorem adds_insert (r : RootFiles) (h : Files.Journaled w.files journal) {emitted : PathMap Text}
    {before : List FileAct} (hw : Writer.Written before emitted) :
    Adds (onBench journal) (r.insert w emitted) fun r l =>
      w.Attempts l ∧ ∀ types m, r = .ok (types, m) → Writer.Written (before ++ l) m := by
  refine Adds.after_nothing (r.nothing_typesPath) (fun types => ?_) fun e => ⟨.nil, by rintro _ m ⟨⟩⟩
  refine (r.adds_insertPlans h _ hw).bind (fun m l hl => ?_) fun e l hl =>
    ⟨hl.1, by rintro _ m ⟨⟩⟩
  refine (Adds.pure (types, m)).mono ?_
  rintro r l' ⟨rfl, rfl⟩
  rw [List.append_nil]
  exact ⟨hl.1, by rintro _ m ⟨⟩; exact hl.2 m rfl⟩

end RootFiles

/-! ## Rolling up -/

namespace Rollup

/-- Where the tool puts the result for a declaration. -/
def resultOf (r : Rollup σ) (target : Path) : Path := (r.request none none target).outputPath

/-- The tool is asked about the targets in turn, until it fails. -/
theorem adds_runTargets (r : Rollup σ)
    (h : ∀ q : RollupRequest, Adds journal (r.engine.run q) fun _ l => l = [.rollUp q.entryPath q.outputPath])
    (lib : Option Path) (targets : List Path) (emitted : PathMap Text) :
    Adds (onBench journal) (r.runTargets lib emitted targets) fun res l =>
      (∃ asked, asked <+: targets ∧ l = asked.map fun t => .rollUp t (r.resultOf t)) ∧
        ∀ outputs m, res = .ok (outputs, m) → m.keys ⊆ emitted.keys := by
  induction targets generalizing emitted with
  | nil =>
      refine (Adds.pure ([], emitted)).mono ?_
      rintro res l ⟨rfl, rfl⟩
      exact ⟨⟨[], List.nil_prefix, rfl⟩, by rintro outputs m ⟨⟩; exact fun _ h => h⟩
  | cons target rest ih =>
      -- Whether this request fails or a later one does, the targets asked about are the first ones.
      have hpackage : Adds.Nothing (onBench journal) r.packageJson := fun _ => rfl
      rw [runTargets]
      refine Adds.after_nothing hpackage (fun package => ?_) fun e =>
        ⟨⟨[], List.nil_prefix, rfl⟩, by rintro outputs m ⟨⟩⟩
      have hcall := Adds.onWorld (h (r.request lib package target))
      refine hcall.bind (fun _ l hl => ?_) fun e l hl =>
        ⟨⟨[target], List.prefix_cons_inj _ |>.mpr List.nil_prefix, hl⟩, by rintro outputs m ⟨⟩⟩
      have hl : l = [.rollUp target (r.resultOf target)] := hl
      refine (ih _).bind (fun res l' hl' => ?_) fun e l' hl' => ?_
      · refine (Adds.pure _).mono ?_
        rintro res' l'' ⟨rfl, rfl⟩
        obtain ⟨⟨asked, hasked, rfl⟩, hkeys⟩ := hl'
        refine ⟨⟨target :: asked, List.prefix_cons_inj _ |>.mpr hasked, by rw [hl]; simp⟩, ?_⟩
        rintro outputs m ⟨⟩
        refine fun p hp => PathMap.mem_keys_erase (PathMap.mem_keys_erase (hkeys res.1 res.2 rfl hp))
      · obtain ⟨⟨asked, hasked, rfl⟩, -⟩ := hl'
        exact ⟨⟨target :: asked, List.prefix_cons_inj _ |>.mpr hasked, by rw [hl]; simp⟩,
          by rintro outputs m ⟨⟩⟩

/-- Targets are rolled up in turn, and then files are removed that were written before. -/
def RollsUp (r : Rollup σ) (targets : List Path) (before l : List FileAct) : Prop :=
  ∃ asked removed, asked <+: targets ∧
    l = (asked.map fun t => .rollUp t (r.resultOf t)) ++ removed ∧ ∀ a ∈ removed, a.Removes before

theorem rollsUp_nil {r : Rollup σ} {targets : List Path} {before : List FileAct} :
    r.RollsUp targets before [] := ⟨[], [], List.nil_prefix, rfl, by simp⟩

/-- All entries are rolled up, and then what is left of the files written so far is removed. -/
theorem adds_run (r : Rollup σ) (hfiles : Files.Journaled r.files journal)
    (h : ∀ q : RollupRequest, Adds journal (r.engine.run q) fun _ l => l = [.rollUp q.entryPath q.outputPath])
    (entries : List Entry) (types : Path) {emitted : PathMap Text} {before : List FileAct}
    (hw : Writer.Written before emitted) :
    Adds (onBench journal) (r.run entries types emitted) fun _ l =>
      r.RollsUp (r.targets entries types) before l := by
  rw [run]
  refine Adds.after_nothing (.report _) (fun _ => ?_) fun e => rollsUp_nil
  refine Adds.after_nothing .world (fun world => ?_) fun e => rollsUp_nil
  refine (r.adds_runTargets h _ _ emitted).bind (fun res rolled hl => ?_) ?_
  · obtain ⟨⟨asked, hasked, rfl⟩, hkeys⟩ := hl
    have hstale : res.2.keys ⊆ emitted.keys := hkeys res.1 res.2 rfl
    have htask (p : Path) : Adds (onBench journal) (WorkM.files (r.files.remove p)) fun res l =>
        l = [.remove p res.isOk] := Adds.files (l := fun done => [.remove p done]) (hfiles.remove p)
    -- Whatever a task for a left-over file adds tells its removal.
    have hremoved (ends : List (Adds.Ending Path Unit)) (htasks : ends.map (·.task) = res.2.keys)
        (hends : ∀ e ∈ ends, e.added = [.remove e.task e.result.isOk]) :
        ∀ a ∈ ends.flatMap (·.added), a.Removes before := by
      intro a ha
      obtain ⟨e, he, ha⟩ := List.mem_flatMap.mp ha
      rw [hends e he, List.mem_singleton] at ha
      obtain ⟨t, ht⟩ := hw e.task (hstale (htasks ▸ List.mem_map_of_mem he))
      exact ⟨e.task, t, e.result.isOk, ha, ht⟩
    refine (Adds.runAll htask res.2.keys).bind (fun _ removed hl => ?_) ?_
    · obtain ⟨ends, htasks, rfl, hends, -⟩ := hl
      refine (Adds.nothing (.bind (.files (nothing_prune hfiles.removeDir _)) fun _ => .bind .world fun _ =>
        .bind (.ofExcept _) fun _ => .pure _)).mono ?_
      rintro _ l rfl
      exact ⟨asked, _, hasked, by rw [List.append_nil], hremoved ends htasks hends⟩
    · rintro e l ⟨ends, htasks, rfl, hends, -⟩
      exact ⟨asked, _, hasked, rfl, hremoved ends htasks hends⟩
  · rintro e l ⟨⟨asked, hasked, rfl⟩, -⟩
    exact ⟨asked, [], hasked, (List.append_nil _).symm, by simp⟩

end Rollup

/-! ## A flush -/

namespace Host

/-- The entries of a flush, in the order in which it adds them. -/
structure Acts where
  primary : List FileAct
  rolled : List FileAct
  removed : List FileAct
  copies : List FileAct

/-- All entries of a flush. -/
def Acts.all (a : Acts) : List FileAct := a.primary ++ a.rolled ++ a.removed ++ a.copies

/-- The files that recorded outputs become. -/
def outputFiles (h : Host σ π) (p : π) (b : Build) : List OutputFile :=
  b.outputs.snapshot.filterMap (h.writer.output? (h.layout p b))

/-- What a flush of recorded outputs does to the files: outputs and root files are written; once all of
    that has succeeded, entries are rolled up; what was written and is left over is removed; and there
    are rounds of copies. -/
structure FlushActs (h : Host σ π) (outputs : List OutputFile) (a : Acts) : Prop where
  primary : h.writer.Attempts a.primary
  rolled : ∀ x ∈ a.rolled, x.IsRollUp
  outputs : a.rolled ≠ [] → ∀ f ∈ outputs, .write f true ∈ a.primary
  removed : ∀ x ∈ a.removed, x.Removes a.primary
  copies : InRounds h.writer.CopiesTo (h.options.outDirs.drop 1) a.copies

variable {h : Host σ π}

/-- A flush that ends among its outputs. -/
theorem flushActs_primary (outputs : List OutputFile) {l : List FileAct} (hl : h.writer.Attempts l) :
    h.FlushActs outputs ⟨l, [], [], []⟩ where
  primary := hl
  rolled := by simp
  outputs hne := absurd rfl hne
  removed := by simp
  copies := .nil

/-- After the writes `before`, root files are written, entries are rolled up, and files are removed. -/
def RootActs (h : Host σ π) (before l : List FileAct) : Prop :=
  ∃ roots rolled removed, l = roots ++ (rolled ++ removed) ∧ h.writer.Attempts roots ∧
    (∀ x ∈ rolled, x.IsRollUp) ∧ ∀ x ∈ removed, x.Removes (before ++ roots)

theorem RootActs.ofRoots {before roots : List FileAct} (h' : h.writer.Attempts roots) :
    h.RootActs before roots := ⟨roots, [], [], (List.append_nil _).symm, h', by simp, by simp⟩

theorem RootActs.rollUp {before roots l : List FileAct} (h' : h.writer.Attempts roots)
    {r : Rollup σ} {targets : List Path} (hl : r.RollsUp targets (before ++ roots) l) :
    h.RootActs before (roots ++ l) := by
  obtain ⟨asked, removed, -, rfl, hremoved⟩ := hl
  exact ⟨roots, _, removed, rfl, h', List.forall_mem_map.mpr fun t _ => ⟨t, _, rfl⟩, hremoved⟩

theorem adds_addRootFiles (hj : h.Journaled journal) (p : π) (b : Build) {emitted : PathMap Text}
    {before : List FileAct} (hw : Writer.Written before emitted) :
    Adds (onBench journal) (h.addRootFiles p b emitted) fun _ l => h.RootActs before l := by
  unfold addRootFiles
  split
  · exact (Adds.nothing (.pure _)).mono fun r l hl => hl ▸ .ofRoots .nil
  · have hfiles : Files.Journaled h.writer.files journal := hj.files
    refine ((h.rootFiles b).adds_insert hfiles hw).bind (fun res roots hl => ?_) fun e roots hl =>
      .ofRoots hl.1
    obtain ⟨hattempts, hwritten⟩ := hl
    have hroots : Writer.Written (before ++ roots) res.2 := hwritten res.1 res.2 rfl
    have hnone {l : List FileAct} (hl : l = []) : h.RootActs before (roots ++ l) := by
      rw [hl, List.append_nil]
      exact .ofRoots hattempts
    refine Adds.after_nothing (.phase _) (fun _ => ?_) fun e => hnone rfl
    unfold Host.rollUp
    split
    · exact (Adds.nothing (.pure _)).mono fun r l => hnone
    · cases hengine : h.engine with
      | none => exact (Adds.nothing (.throw _)).mono fun r l => hnone
      | some engine =>
          have hrun := (h.rollup p b engine).adds_run hj.files (hj.engine engine hengine)
            h.options.entries res.1 hroots
          refine hrun.bind (fun res l hl => ?_) fun e l hl => .rollUp hattempts hl
          refine (Adds.nothing (.bind (.phase _) fun _ => .pure _)).mono ?_
          rintro r l' rfl
          rw [List.append_nil]
          exact .rollUp hattempts hl

/-- **A flush of recorded outputs** adds such entries, whatever comes of it. -/
theorem adds_writeRecorded (hj : h.Journaled journal) (p : π) (b : Build) (version : Nat) :
    Adds (onBench journal) (h.writeRecorded p b version) fun _ l =>
      ∃ a : Acts, l = a.all ∧ h.FlushActs (h.outputFiles p b) a := by
  have hfiles : Files.Journaled h.writer.files journal := hj.files
  rw [writeRecorded]
  refine (Writer.adds_writeOutputs hfiles (h.layout p b) b.outputs.snapshot).bind
    (fun emitted primary hl => ?_) fun e primary hl => ?_
  · obtain ⟨hprimary, hwritten⟩ := hl
    obtain ⟨hemitted, houtputs⟩ := hwritten emitted rfl
    -- Whatever root files, rollups and copies come after the outputs, they make up a flush.
    have hflush {l copies : List FileAct} (hroots : h.RootActs primary l)
        (hcopies : InRounds h.writer.CopiesTo (h.options.outDirs.drop 1) copies) :
        ∃ a : Acts, primary ++ (l ++ copies) = a.all ∧ h.FlushActs (h.outputFiles p b) a := by
      obtain ⟨roots, rolled, removed, rfl, hattempts, hrolled, hremoved⟩ := hroots
      refine ⟨⟨primary ++ roots, rolled, removed, copies⟩, by simp [Acts.all],
        hprimary.append hattempts, hrolled, fun _ f hf => ?_, hremoved, hcopies⟩
      obtain ⟨o, ho, hof⟩ := List.mem_filterMap.mp hf
      exact List.mem_append_left _ (houtputs o ho f hof)
    have hflush' {l : List FileAct} (hroots : h.RootActs primary l) :
        ∃ a : Acts, primary ++ l = a.all ∧ h.FlushActs (h.outputFiles p b) a := by
      have hend := hflush hroots .nil
      rwa [List.append_nil] at hend
    refine Adds.after_nothing (.phase _) (fun _ => ?_) fun e => ?_
    · refine (adds_addRootFiles hj p b hemitted).bind (fun res l hroots => ?_) fun e l => hflush'
      refine (Writer.adds_replicate hfiles res.2 _).bind (fun copied copies hcopies => ?_)
        fun e copies => hflush hroots
      refine (Adds.nothing (.bind (.ofExcept _) fun _ => .bind (.phase _) fun _ =>
        .bind (.report _) fun _ => .pure _)).mono ?_
      rintro r l' rfl
      rw [List.append_nil]
      exact hflush hroots hcopies
    · exact hflush' (.ofRoots .nil)
  · exact ⟨⟨primary, [], [], []⟩, by simp [Acts.all], flushActs_primary _ hl.1⟩

/-! ## Calls -/

/-- The files that the recorded outputs become in the flush of a session, if its outputs can be
    recorded. -/
def flushFiles (h : Host σ π) (s : Session σ π) : List OutputFile :=
  match s.build with
  | none => []
  | some b =>
    match outcome (h.gather b s) with
    | (.ok (s', b'), _) => h.outputFiles s'.program b'
    | (.error _, _) => []

/-- **A call of `writeBundle`** does to the files what a flush does, or nothing. -/
theorem Flushes.acts (hj : h.Journaled journal) {s s' : Session σ π}
    {r : Except BuildError (Option Report)} (hf : h.Flushes s r s') :
    ∃ a : Acts, journal s'.bench.world = journal s.bench.world ++ a.all ∧
      h.FlushActs (h.flushFiles s) a := by
  have hnone {s' : Session σ π} (hw : s'.bench.world = s.bench.world) :
      ∃ a : Acts, journal s'.bench.world = journal s.bench.world ++ a.all ∧
        h.FlushActs (h.flushFiles s) a :=
    ⟨⟨[], [], [], []⟩, by rw [hw]; exact (List.append_nil _).symm, flushActs_primary _ .nil⟩
  cases hf with
  | notStarted hb => exact hnone rfl
  | skipped hb hf => exact hnone rfl
  | @failed b e s' hb hf hg =>
      refine hnone ?_
      have hworld := (h.gather_spec b s).1
      rwa [hg] at hworld
  | @written b b' s' r bench hb hf hg hw =>
      have hworld := (h.gather_spec b s).1
      rw [hg] at hworld
      obtain ⟨l, hl, a, rfl, ha⟩ := adds_writeRecorded hj s'.program b' s'.version s'.bench
      rw [hw] at hl
      refine ⟨a, ?_, ?_⟩
      · rw [← hworld]
        exact hl
      · rw [flushFiles, hb]
        dsimp only
        rw [hg]
        exact ha

/-- The other calls do nothing to the files. -/
theorem journal_call (hj : h.Journaled journal) {c : Call} (hc : c ≠ .writeBundle) (s : Session σ π) :
    journal (outcome (h.call c s)).2.bench.world = journal s.bench.world := by
  have hquiet {s' : Session σ π} (hb : s'.bench = s.bench) :
      journal s'.bench.world = journal s.bench.world := by rw [hb]
  cases c with
  | start => exact congrArg journal (h.start_spec s).1
  | transform path code => exact hquiet (h.quiet_transform path code).1
  | transformSources => exact hquiet h.quiet_transformSources.1
  | transformSource path => exact hquiet (h.quiet_transformSource path).1
  | invalidate path => exact world_invalidate hj.refresh path s
  | writeBundle => exact absurd rfl hc

end Host

/-! ## A scripted session with a journal -/

/-- A tool whose requests are told in a journal beside the world. -/
def RollupEngine.journaled (e : RollupEngine σ) : RollupEngine (σ × List FileAct) where
  run r := Files.told (e.run r) fun _ => .rollUp r.entryPath r.outputPath

/-- Files in memory with the requests to a scripted tool, and the journal. -/
abbrev ScriptedWorld := (Files.Memory × List RollupRequest) × List FileAct

/-- A session over files in memory, a table of sources and a tool that writes its result. -/
def scriptedHost (options : BuildOptions) (hooks : Hooks) : Host ScriptedWorld DryRun.TableProgram where
  options := options
  files := Files.Memory.store.zoom.journaled
  compiler := DryRun.TableProgram.compiler
  registry := .withBuiltIns []
  hooks := hooks
  engine := some (RollupEngine.journaled (DryRun.EngineScript.engine ⟨.write, none⟩ Files.Memory.store))

theorem adds_journaled (e : RollupEngine σ) (r : RollupRequest) :
    Adds Prod.snd (e.journaled.run r) fun _ l => l = [.rollUp r.entryPath r.outputPath] :=
  adds_told (e.run r) fun _ => FileAct.rollUp r.entryPath r.outputPath

theorem journaled_scriptedHost (options : BuildOptions) (hooks : Hooks) :
    (scriptedHost options hooks).Journaled Prod.snd where
  files := Files.journaled_journaled _
  engine e he r := by
    cases Option.mem_some.mp he
    exact adds_journaled _ r
  refresh _ _ := rfl

end Typings
