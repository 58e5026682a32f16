import Typings.Proofs.Session.FlushActs

/-!
# `Containment` — strict output stays in its directories

With strict output the writer asks of every file, after the hook has had its say, whether its folded
directory lies inside the directory that is written to.  So wherever a path comes from, what is written
lies strictly inside, and so does what is removed, which was written before.

* `FileAct.WritesInto`: a write strictly inside a directory.
* `Host.Contained`: the entries of a flush that stays in its directories.
* `Host.Run.contained`: every flush of every run does.

The two are taken from the journal of a flush, in which every act on a file is told, so nothing that
is done to files is left out.  What happens in front of a flush is told there too, and comes to
nothing.
-/

namespace Typings

variable {σ π : Type} {journal : σ → List FileAct}

/-- The entry tells a write strictly inside the directory. -/
def FileAct.WritesInto (dir : Path) (a : FileAct) : Prop :=
  ∃ f done, a = .write f done ∧ f.path.StrictlyWithin dir

/-- A strict writer writes strictly inside its directory. -/
theorem Writer.Attempts.into {w : Writer σ} {l : List FileAct} (h : w.Attempts l)
    (hs : w.strict = true) (hd : w.outDir.isAbsolute = true) : ∀ a ∈ l, a.WritesInto w.outDir := by
  intro a ha
  obtain ⟨f, done, rfl, hfolded, hallow⟩ := h a ha
  rw [Writer.allows, hs, Bool.not_true, Bool.false_or, ← hfolded] at hallow
  exact ⟨f, done, rfl, Path.strictlyWithin_of_parentDir hd hallow⟩

namespace Host

/-- The entries of a flush that stays in its directories: outputs and root files are written strictly
    inside the first, what is removed has been written there, and each copy is written strictly inside
    the directory that it is made for. -/
structure Contained (h : Host σ π) (a : Acts) : Prop where
  primary : ∀ x ∈ a.primary, x.WritesInto h.options.outDir
  rolled : ∀ x ∈ a.rolled, x.IsRollUp
  removed : ∀ x ∈ a.removed, x.Removes a.primary
  copies : InRounds (fun dir l => (∀ x ∈ l, x.WritesInto dir) ∧ l.length ≤ 1)
    (h.options.outDirs.drop 1) a.copies

variable {h : Host σ π}

theorem FlushActs.staysInside {outputs : List OutputFile} {a : Acts} (ha : h.FlushActs outputs a)
    (hs : h.options.strictOutput = true) (hd : h.options.outDir.isAbsolute = true)
    (hds : ∀ d ∈ h.options.outDirs.drop 1, d.isAbsolute = true) : h.Contained a where
  primary := ha.primary.into hs hd
  rolled := ha.rolled
  removed := ha.removed
  copies := ha.copies.mono fun dir hdir _ hl =>
    ⟨hl.1.into (w := { h.writer with outDir := dir }) hs (hds dir hdir), hl.2⟩

/-- **Strict output stays in its directories.** In every run of a session that writes strictly to absolute
    directories, whatever the program, the options and the hooks are, only flushes touch files, and what
    each of them writes and removes is contained.  Between the calls the program and the files may
    change. -/
theorem Run.contained (hj : h.Journaled journal) (hs : h.options.strictOutput = true)
    (hd : h.options.outDir.isAbsolute = true)
    (hds : ∀ d ∈ h.options.outDirs.drop 1, d.isAbsolute = true) {s₀ s : Session σ π}
    {hist : List Exchange} (hr : h.Run (fun w w' => journal w' = journal w) s₀ hist s) :
    ∃ told : List (Exchange × Acts), told.map (·.1) = hist ∧
      journal s.bench.world = journal s₀.bench.world ++ told.flatMap (·.2.all) ∧
      ∀ x ∈ told, h.Contained x.2 ∧ (x.1.call ≠ .writeBundle → x.2.all = []) := by
  induction hr with
  | nil => exact ⟨[], rfl, (List.append_nil _).symm, by simp⟩
  | @call hist s _ c ih =>
      obtain ⟨told, rfl, hjournal, htold⟩ := ih
      -- The call adds the entries of one flush, or none.
      have hcall : ∃ a : Acts, journal (outcome (h.call c s)).2.bench.world
          = journal s.bench.world ++ a.all ∧ h.Contained a ∧ (c ≠ .writeBundle → a.all = []) := by
        by_cases hc : c = .writeBundle
        · subst hc
          obtain ⟨a, hl, ha⟩ := (h.flushes s).acts hj
          exact ⟨a, hl, ha.staysInside hs hd hds, fun hne => absurd rfl hne⟩
        · refine ⟨⟨[], [], [], []⟩, ?_, ?_, fun _ => rfl⟩
          · rw [journal_call hj hc s]
            exact (List.append_nil _).symm
          · exact (flushActs_primary [] .nil).staysInside hs hd hds
      obtain ⟨a, hl, ha, hnone⟩ := hcall
      refine ⟨told ++ [(h.exchange c s, a)], by simp, ?_, ?_⟩
      · rw [hl, hjournal, List.flatMap_append, List.append_assoc]
        simp
      · intro x hx
        rcases List.mem_append.mp hx with hx | hx
        · exact htold x hx
        · rw [List.mem_singleton.mp hx]
          exact ⟨ha, hnone⟩
  | drift _ hd ih =>
      obtain ⟨told, htold, hjournal, hall⟩ := ih
      exact ⟨told, htold, hd.trans hjournal, hall⟩

end Host

/-! ## A session whose hook leads outside -/

/-- Two directories, and a rollup of the one entry. -/
def twoDirectories : BuildOptions :=
  { BuildOptions.ofRoot "/p" with
    outDirs := ["/p/dist", "/p/types"]
    library := some { name := "n", entries := [⟨"main", "/p/src/main.ts"⟩] }
    rollupTypes := true }

/-- The hook sends one file to a place that is not inside. -/
def astray : Hooks where
  beforeWrite f :=
    if f.path == "/p/dist/util.d.ts" then .change (some "/p/dist/../util.d.ts") none else .keep

/-- Two sources before the session has started. -/
def astrayNew : Session ScriptedWorld DryRun.TableProgram :=
  .create (({}, []), [])
    { currentDir := "/p/src"
      sources := [⟨"/p/src/main.ts", "main"⟩, ⟨"/p/src/util.ts", "util"⟩]
      emits := [("/p/src/main.ts", ⟨"main.d.ts", "main"⟩), ("/p/src/util.ts", ⟨"util.d.ts", "util"⟩)] }

/-- The session after its start. -/
def astrayStarted : Session ScriptedWorld DryRun.TableProgram :=
  (outcome ((scriptedHost twoDirectories astray).call .start astrayNew)).2

/-- The session after its first flush. -/
def astrayFlushed : Session ScriptedWorld DryRun.TableProgram :=
  (outcome ((scriptedHost twoDirectories astray).call .writeBundle astrayStarted)).2

theorem run_astrayFlushed :
    (scriptedHost twoDirectories astray).Run (fun w w' => w'.2 = w.2) astrayNew
      ([] ++ [(scriptedHost twoDirectories astray).exchange .start astrayNew]
        ++ [(scriptedHost twoDirectories astray).exchange .writeBundle astrayStarted])
      astrayFlushed :=
  .call (.call .nil .start) .writeBundle

/-- The declaration of the entry is written, rolled up through the root file, and removed; what is left
    is copied.  The other declaration is not written. -/
theorem contained_astrayFlushed :
    astrayFlushed.bench.world.2 =
        [.write ⟨"/p/dist/main.d.ts", "main"⟩ true,
          .write ⟨"/p/dist/index.d.ts", "export * from './main'\n"⟩ true,
          .rollUp "/p/dist/index.d.ts" "/p/dist/index.d.ts",
          .remove "/p/dist/main.d.ts" true,
          .write ⟨"/p/types/index.d.ts", "// rolled up from /p/dist/index.d.ts\n"⟩ true] ∧
      ∃ told : List (Exchange × Host.Acts),
        told.map (·.1) = [] ++ [(scriptedHost twoDirectories astray).exchange .start astrayNew]
          ++ [(scriptedHost twoDirectories astray).exchange .writeBundle astrayStarted] ∧
        astrayFlushed.bench.world.2 = [] ++ told.flatMap (·.2.all) ∧
        ∀ x ∈ told, (scriptedHost twoDirectories astray).Contained x.2 ∧
          (x.1.call ≠ .writeBundle → x.2.all = []) := by
  have hjournal : astrayFlushed.bench.world.2 =
      [.write ⟨"/p/dist/main.d.ts", "main"⟩ true,
        .write ⟨"/p/dist/index.d.ts", "export * from './main'\n"⟩ true,
        .rollUp "/p/dist/index.d.ts" "/p/dist/index.d.ts",
        .remove "/p/dist/main.d.ts" true,
        .write ⟨"/p/types/index.d.ts", "// rolled up from /p/dist/index.d.ts\n"⟩ true] := by
    repeat rw [Text.toList_literal rfl]
    decide +kernel
  exact ⟨hjournal,
    Host.Run.contained (journaled_scriptedHost _ _) rfl (by decide) (by decide) run_astrayFlushed⟩

end Typings
