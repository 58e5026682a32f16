import Typings.Files.Memory
import Typings.Proofs.Outcome
import Typings.Proofs.Path.Parents

/-!
# `Directories` — the directories of files in memory

A file in memory brings the directories above it with it.  They are looked for from the nearest on, and the
search ends at the first one that is there already.  What is above that one is not looked at: it is there
because whatever is above a directory is one (`Memory.Closed`), and every operation keeps it so.

Files in memory start with nothing, and then files are written and removed, and directories made and
removed, in any order and whether the single operation succeeds or not.  Whatever was done, the places above
every file and every directory are directories (`Reachable.sound`).

* `Memory.contains_withAncestors`: the directories after a search that meets no gap.
* `Memory.Closed`: whatever is above a directory is a directory.
* `closed_ofFiles`, `Closed.insert`, `Closed.createDirs`, `Closed.removeDir`: it is so from the start on.
* `Memory.Change`, `Memory.Reachable`: the operations, and the memories that they lead to.
* `Memory.Sound`: what all of these have in common; `Sound.step`: one operation.
* `Memory.Apart`: no place is a file and a directory.
-/

namespace Typings.Files.Memory

variable {m m' : Memory} {dirs : PathSet} {p q : Path}

/-! ## The search -/

/-- Above `p`, whatever is above a directory is one. -/
def Gapless (dirs : PathSet) (p : Path) : Prop :=
  ∀ a : Path, a.Above p → dirs.contains a = true → ∀ b : Path, b.Above a → dirs.contains b = true

/-- A set with one directory more holds that one and what it held. -/
theorem contains_add : (PathSet.add dirs p).contains q = (p.same q || dirs.contains q) :=
  PathMap.contains_insert _ _ _ _

/-- A place is not above itself, so it makes no gap there. -/
theorem Gapless.add (h : Gapless dirs p) : Gapless (PathSet.add dirs p) p := by
  intro a ha hin b hb
  rw [contains_add, Bool.or_eq_true] at hin ⊢
  exact .inr (h a ha (hin.resolve_left fun hs => ha.2.2 (Path.same_iff.mp hs).symm) b hb)

theorem Gapless.of_parent? (h : Gapless dirs p) {up : Path} (hparent : p.parent? = some up) :
    Gapless dirs up ∧ (dirs.contains up = true → ∀ b : Path, b.Above up → dirs.contains b = true) := by
  have habove := Path.above_iff_of_parent? hparent
  constructor
  · intro a ha
    exact h a ((habove a).mpr ⟨ha.1, .inr ha⟩)
  · intro hin b hb
    have hne : up.components ≠ [] := fun he => hb.1 (List.prefix_nil.mp (he ▸ hb.2.1))
    exact h up ((habove up).mpr ⟨hne, .inl (Path.same_self up)⟩) hin b hb

/-- What the search from `p` on is for: `p` and what is above it, but not the empty path. -/
theorem reaches_iff (hp : p.components ≠ []) :
    q.components ≠ [] ∧ (p.same q = true ∨ q.Above p) ↔ p.same q = true ∨ q.Above p := by
  refine ⟨And.right, fun h => ⟨?_, h⟩⟩
  rcases h with hs | ha
  · exact fun hq => hp ((Path.same_iff.mp hs).trans hq)
  · exact ha.1

/-- Adding the ancestors of a place adds the place and what is above it, up to the root. -/
theorem contains_addAncestors (h : Gapless dirs p)
    (hp : dirs.contains p = true → ∀ b : Path, b.Above p → dirs.contains b = true) (q : Path) :
    (addAncestors dirs p.ancestors).contains q
      = (dirs.contains q || decide (q.components ≠ [] ∧ (p.same q = true ∨ q.Above p))) := by
  -- The search goes from a path to its parent, which has one component less.
  induction hlength : p.components.length using Nat.strong_induction_on generalizing p dirs with
  | _ n ih =>
      subst hlength
      rw [Path.ancestors_eq, addAncestors]
      by_cases hempty : p.components = []
      · have htext : p.text.isEmpty = true := List.isEmpty_iff.mpr (Path.text_eq_nil_iff.mpr hempty)
        have hnone : ¬ (q.components ≠ [] ∧ (p.same q = true ∨ q.Above p)) := by
          rintro ⟨hq, hs | ha⟩
          · exact hq ((Path.same_iff.mp hs).symm.trans hempty)
          · exact hq (List.prefix_nil.mp (hempty ▸ ha.2.1))
        rw [htext, Bool.true_or, if_pos rfl, decide_eq_false hnone, Bool.or_false]
      · have htext : p.text.isEmpty = false :=
          List.isEmpty_eq_false_iff.mpr fun ht => hempty (Path.text_eq_nil_iff.mp ht)
        rw [htext, Bool.false_or, decide_eq_decide.mpr (reaches_iff hempty)]
        by_cases hthere : dirs.contains p = true
        · have hin : p.same q = true ∨ q.Above p → dirs.contains q = true := by
            rintro (hs | ha)
            · rwa [← PathMap.contains_congr hs]
            · exact hp hthere q ha
          rw [if_pos hthere]
          by_cases hq : p.same q = true ∨ q.Above p
          · rw [hin hq, Bool.true_or]
          · rw [decide_eq_false hq, Bool.or_false]
        · rw [if_neg hthere]
          cases hparent : p.parent? with
          | none =>
              rw [addAncestors, contains_add, Bool.or_comm, Bool.decide_or, Bool.decide_eq_true,
                decide_eq_false (Path.not_above_of_parent? hparent q), Bool.or_false]
          | some up =>
              obtain ⟨c, -, hcomponents⟩ := Path.components_of_parent? hparent
              obtain ⟨hgapless, hup⟩ := h.add.of_parent? hparent
              rw [ih up.components.length (by simp [hcomponents]) hgapless hup rfl, contains_add,
                ← decide_eq_decide.mpr (Path.above_iff_of_parent? hparent q), Bool.decide_or,
                Bool.decide_eq_true, Bool.or_comm (p.same q), Bool.or_assoc]

/-- After the search all places above `p` are directories. -/
theorem contains_withAncestors (h : Gapless dirs p) (q : Path) :
    (withAncestors dirs p).contains q = (dirs.contains q || decide (q.Above p)) := by
  rw [withAncestors, Path.ancestors_eq, List.tail_cons]
  cases hparent : p.parent? with
  | none => rw [addAncestors, decide_eq_false (Path.not_above_of_parent? hparent q), Bool.or_false]
  | some up =>
      obtain ⟨hgapless, hup⟩ := h.of_parent? hparent
      rw [contains_addAncestors hgapless hup, decide_eq_decide.mpr (Path.above_iff_of_parent? hparent q)]

/-! ## Closed memories -/

/-- Whatever is above a directory is a directory. -/
def Closed (m : Memory) : Prop :=
  ∀ p q : Path, m.dirs.contains p = true → q.Above p → m.dirs.contains q = true

theorem Closed.gapless (h : m.Closed) (p : Path) : Gapless m.dirs p := fun a _ hin b => h a b hin

/-- A file that is written brings the directories above it. -/
theorem contains_dirs_insert (h : m.Closed) (p : Path) (t : Text) (q : Path) :
    (m.insert p t).dirs.contains q = (m.dirs.contains q || decide (q.Above p)) :=
  contains_withAncestors (h.gapless p) q

/-- A directory that is made brings itself and the directories above it. -/
theorem contains_dirs_createDirs (h : m.Closed) (p q : Path) :
    (m.createDirs p).dirs.contains q = (m.dirs.contains q || (p.same q || decide (q.Above p))) := by
  rw [createDirs, contains_withAncestors (h.gapless p).add, contains_add, Bool.or_left_comm, Bool.or_assoc]

/-- A memory stays closed when a place and all that is above it are added to its directories. -/
theorem Closed.of_contains (h : m.Closed) {added : Path → Prop} [DecidablePred added]
    (hdirs : ∀ q, m'.dirs.contains q = (m.dirs.contains q || decide (added q)))
    (hadded : ∀ a b : Path, added a → b.Above a → added b) : m'.Closed := by
  intro a b ha hb
  rw [hdirs, Bool.or_eq_true, decide_eq_true_iff] at ha ⊢
  exact ha.imp (h a b · hb) (hadded a b · hb)

/-- Writing a file keeps the store closed upward. -/
theorem Closed.insert (h : m.Closed) (p : Path) (t : Text) : (m.insert p t).Closed :=
  h.of_contains (contains_dirs_insert h p t) fun _ _ ha hb => hb.trans ha

/-- Making a directory keeps the store closed upward. -/
theorem Closed.createDirs (h : m.Closed) (p : Path) : (m.createDirs p).Closed := by
  have hdirs : ∀ q, (m.createDirs p).dirs.contains q
      = (m.dirs.contains q || decide (p.same q = true ∨ q.Above p)) := by
    intro q
    rw [contains_dirs_createDirs h, Bool.decide_or, Bool.decide_eq_true]
  refine h.of_contains hdirs ?_
  rintro a b (hs | ha) hb
  · exact .inr ((Path.above_congr hs b).mpr hb)
  · exact .inr (hb.trans ha)

/-- A store that is laid out from its files is closed upward. -/
theorem closed_ofFiles (files : List (Path × Text)) : (ofFiles files).Closed := by
  induction files using List.reverseRecOn with
  | nil => exact fun p q hp => nomatch hp
  | append_singleton files f ih =>
      rw [ofFiles, List.foldl_append, ← ofFiles]
      exact ih.insert f.1 f.2

/-- A directory that is removed had nothing below it, so it is above no directory that stays. -/
theorem Closed.removeDir (h : m.Closed) (hrun : m.removeDir p = .ok m') : m'.Closed := by
  unfold Memory.removeDir at hrun
  split at hrun
  · cases hrun
  · next hempty =>
      split at hrun
      · obtain rfl := Except.ok.inj hrun
        intro a b ha hb
        rw [PathMap.contains_erase, Bool.and_eq_true] at ha ⊢
        refine ⟨?_, h a b ha.2 hb⟩
        by_contra hs
        have hpb : p.components = b.components := Path.same_iff.mp (by simpa using hs)
        obtain ⟨⟨d, u⟩, hd, hda⟩ := List.any_eq_true.mp ha.2
        have hda : d.components = a.components := Path.same_iff.mp hda
        refine hempty (Bool.or_eq_true_iff.mpr (.inr (List.any_eq_true.mpr ?_)))
        refine ⟨d, List.mem_map_of_mem hd, Bool.and_eq_true_iff.mpr ⟨?_, ?_⟩⟩
        · rw [Bool.not_eq_true', Bool.eq_false_iff, Ne, Path.same_iff, hda, hpb]
          exact hb.2.2.symm
        · rw [Path.startsWith, List.isPrefixOf_iff_prefix, hda, hpb]
          exact hb.2.1
      · cases hrun

/-! ## Operations -/

/-- An operation that may change the files in memory. -/
inductive Change where
  | write (p : Path) (t : Text)
  | createDirs (p : Path)
  | remove (p : Path)
  | removeDir (p : Path)
deriving DecidableEq, Repr

/-- The operation of the store. -/
def Change.run : Change → StoreM Memory Unit
  | .write p t => store.write p t
  | .createDirs p => store.createDirs p
  | .remove p => store.remove p
  | .removeDir p => store.removeDir p

/-- The memory after a change; one that fails leaves it as it was. -/
def Change.apply (c : Change) (m : Memory) : Memory := (outcome (c.run m)).2

/-- The memories that changes lead to from the empty one. -/
inductive Reachable : Memory → Prop where
  | empty : Reachable {}
  | step {m : Memory} (h : Reachable m) (c : Change) : Reachable (c.apply m)

/-- A store that is laid out from its files is reached from the empty one. -/
theorem reachable_ofFiles (files : List (Path × Text)) : (ofFiles files).Reachable := by
  induction files using List.reverseRecOn with
  | nil => exact .empty
  | append_singleton files f ih =>
      rw [ofFiles, List.foldl_append, ← ofFiles]
      exact ih.step (.write f.1 f.2)

/-! ## Sound memories -/

/-- The directories are in order, and what is above a directory or a file is a directory. -/
structure Sound (m : Memory) : Prop where
  dirs : m.dirs.Ordered
  closed : m.Closed
  housed : ∀ p q : Path, m.files.contains p = true → q.Above p → m.dirs.contains q = true

theorem sound_empty : Sound {} where
  dirs := PathMap.ordered_empty
  closed _ _ hp := absurd hp Bool.false_ne_true
  housed _ _ hp := absurd hp Bool.false_ne_true

theorem ordered_addAncestors {dirs : PathSet} (h : dirs.Ordered) (above : List Path) :
    (addAncestors dirs above).Ordered := by
  induction above generalizing dirs with
  | nil => exact h
  | cons dir rest ih =>
      rw [addAncestors]
      split
      · exact h
      · exact ih (h.insert dir ())

theorem Sound.insert (h : m.Sound) (p : Path) (t : Text) : (m.insert p t).Sound where
  dirs := ordered_addAncestors h.dirs _
  closed := h.closed.insert p t
  housed f q hf hq := by
    rw [contains_dirs_insert h.closed, Bool.or_eq_true, decide_eq_true_iff]
    rw [Memory.insert, PathMap.contains_insert, Bool.or_eq_true] at hf
    rcases hf with hs | hf
    · exact .inr ((Path.above_congr hs q).mpr hq)
    · exact .inl (h.housed f q hf hq)

theorem Sound.createDirs (h : m.Sound) (p : Path) : (m.createDirs p).Sound where
  dirs := ordered_addAncestors (h.dirs.insert p ()) _
  closed := h.closed.createDirs p
  housed f q hf hq := by
    rw [contains_dirs_createDirs h.closed, h.housed f q hf hq, Bool.true_or]

/-- Files may go without more ado. -/
theorem Sound.of_files (h : m.Sound) (hdirs : m'.dirs = m.dirs)
    (hfiles : ∀ p, m'.files.contains p = true → m.files.contains p = true) : m'.Sound where
  dirs := hdirs ▸ h.dirs
  closed := by
    unfold Closed
    rw [hdirs]
    exact h.closed
  housed f q hf hq := by
    rw [hdirs]
    exact h.housed f q (hfiles f hf) hq

/-- A removed file is gone, and the other files stay. -/
theorem contains_removeFile (hrun : m.removeFile p = .ok m') (q : Path) :
    m'.files.contains q = (!p.same q && m.files.contains q) := by
  unfold removeFile at hrun
  split at hrun
  · obtain rfl := Except.ok.inj hrun
    exact PathMap.contains_erase _ _ _
  · exact nomatch hrun

/-- Removing a file keeps the invariant. -/
theorem Sound.removeFile (h : m.Sound) (hrun : m.removeFile p = .ok m') : m'.Sound := by
  refine h.of_files ?_ fun q hq => ?_
  · unfold Memory.removeFile at hrun
    split at hrun
    · obtain rfl := Except.ok.inj hrun
      rfl
    · exact nomatch hrun
  · rw [contains_removeFile hrun, Bool.and_eq_true] at hq
    exact hq.2

theorem startsWith_of_above (h : q.Above p) : p.startsWith q = true :=
  List.isPrefixOf_iff_prefix.mpr h.2.1

/-- Only a directory with nothing in it is removed. -/
theorem removeDir_ok (hrun : m.removeDir p = .ok m') :
    m.isOccupied p = false ∧ m' = { m with dirs := m.dirs.erase p } := by
  unfold Memory.removeDir at hrun
  split at hrun
  · exact nomatch hrun
  · next hempty =>
      split at hrun
      · exact ⟨by simpa using hempty, (Except.ok.inj hrun).symm⟩
      · exact nomatch hrun

/-- Removing a directory with all below it keeps the invariant. -/
theorem Sound.removeDir (h : m.Sound) (hrun : m.removeDir p = .ok m') : m'.Sound where
  dirs := by
    rw [(removeDir_ok hrun).2]
    exact h.dirs.erase p
  closed := h.closed.removeDir hrun
  housed f q hf hq := by
    obtain ⟨hempty, rfl⟩ := removeDir_ok hrun
    rw [PathMap.contains_erase, Bool.and_eq_true, h.housed f q hf hq]
    refine ⟨?_, rfl⟩
    -- The directory that goes is not above the file, for then the file would be in it.
    by_contra hs
    have hpq : p.same q = true := by simpa using hs
    obtain ⟨⟨g, t⟩, hg, hgf⟩ := List.any_eq_true.mp hf
    have hin : g.startsWith p = true := by
      have hstarts := startsWith_of_above ((Path.above_congr_left hpq f).mpr hq)
      rw [Path.startsWith, Path.same_iff.mp hgf]
      exact hstarts
    rw [isOccupied, Bool.or_eq_false_iff, List.any_eq_false] at hempty
    exact hempty.1 g (List.mem_map_of_mem (f := Prod.fst) hg) hin

/-- A change that fails leaves the memory as it was. -/
theorem Sound.update (h : m.Sound) {f : Memory → Except StoreError Memory}
    (hf : ∀ m', f m = .ok m' → m'.Sound) : (outcome (update f m)).2.Sound := by
  rw [Memory.update]
  cases hrun : f m with
  | ok m' => exact hf m' hrun
  | error e => exact h

/-- **One operation** keeps a memory sound. -/
theorem Sound.step (h : m.Sound) (c : Change) : (c.apply m).Sound := by
  cases c with
  | write p t => exact h.insert p t
  | createDirs p => exact h.createDirs p
  | remove p => exact h.update (f := fun m => m.removeFile p) fun _ hrun => h.removeFile hrun
  | removeDir p => exact h.update (f := fun m => m.removeDir p) fun _ hrun => h.removeDir hrun

/-- Every store that is reached satisfies the invariant. -/
theorem Reachable.sound (h : m.Reachable) : m.Sound := by
  induction h with
  | empty => exact sound_empty
  | step _ c ih => exact ih.step c

/-! ## Files and directories apart -/

/-- No place is a file and a directory. -/
def Apart (m : Memory) : Prop := ∀ p, m.files.contains p = true → m.dirs.contains p = false

theorem apart_iff : m.Apart ↔ ∀ p ∈ m.files.keys, m.dirs.contains p = false := by
  constructor
  · intro h p hp
    obtain ⟨e, he, rfl⟩ := List.mem_map.mp hp
    exact h e.1 (List.any_eq_true.mpr ⟨e, he, Path.same_self _⟩)
  · intro h p hp
    obtain ⟨e, he, hs⟩ := List.any_eq_true.mp hp
    rw [← PathMap.contains_congr hs]
    exact h e.1 (List.mem_map_of_mem he)

instance : Decidable m.Apart := decidable_of_iff _ apart_iff.symm

end Typings.Files.Memory
