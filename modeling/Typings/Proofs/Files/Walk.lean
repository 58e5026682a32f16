import Typings.Proofs.Files.Clearing

/-!
# `Walk` — finding what is in memory from the top

Whatever was done to the files in memory, the places above every file and every directory are directories.  So what
is there can be found by listing directories from the top of its path on, and a directory with anything below it
cannot be removed (`Memory.upward_closed`).

* `Path.top`: the first component of a path alone.
* `Memory.has`: a file or a directory at a place; `mem_list_iff`: those that are listed.
* `Memory.Found`: what a walk from a place finds; `Sound.found`: all that is there.
* `isOccupied_of_below`, `removeDir_of_isOccupied`: what is not removed.
-/

namespace Typings

namespace Path

/-- The first component of a path alone. -/
def top (p : Path) : Path := ofComponents (p.components.take 1)

theorem components_top (p : Path) : p.top.components = p.components.take 1 := by
  unfold top
  cases hp : p.components with
  | nil => decide
  | cons c cs =>
      show (ofComponents [c]).components = [c]
      rcases step_of_mem_components (hp ▸ List.mem_cons_self) with rfl | rfl | hc
      · decide
      · decide
      · exact (components_ofComponents (List.forall_mem_singleton.mpr hc)).1

/-- A path of two components or more has a parent with the same top. -/
theorem exists_parent? {p : Path} (h : 1 < p.components.length) :
    ∃ up, p.parent? = some up ∧ up.components ≠ [] ∧ up.top = p.top := by
  obtain ⟨up, hup⟩ : ∃ up, p.parent? = some up := by
    rw [← Option.ne_none_iff_exists', Ne, parent?_eq_none_iff]
    rintro (hnone | hroot)
    · rw [hnone] at h
      exact Nat.not_lt_zero _ h
    · rw [hroot] at h
      exact Nat.lt_irrefl _ h
  obtain ⟨c, -, hc⟩ := components_of_parent? hup
  have hne : up.components ≠ [] := by
    intro hnone
    rw [hc, hnone] at h
    exact Nat.lt_irrefl _ h
  refine ⟨up, hup, hne, ?_⟩
  rw [top, top, hc, List.take_append_of_le_length (List.length_pos_iff.mpr hne)]

end Path

namespace Files.Memory

variable {m : Memory} {p q dir : Path}

/-! ## What is listed -/

/-- The file or the directory is there. -/
def has (m : Memory) (e : DirEntry) : Bool :=
  if e.isDir then m.dirs.contains e.path else m.files.contains e.path

theorem has_congr (h : p.same q = true) (isDir : Bool) : m.has ⟨p, isDir⟩ = m.has ⟨q, isDir⟩ := by
  rw [has, has, PathMap.contains_congr h, PathMap.contains_congr h]

theorem isThere_iff : m.isThere p = true ↔ ∃ isDir, m.has ⟨p, isDir⟩ = true := by
  rw [Bool.exists_bool]
  exact Bool.or_eq_true_iff

theorem mem_list_iff {entries : List DirEntry} (h : m.list dir = .ok entries) {e : DirEntry} :
    e ∈ entries ↔ isChild dir e.path = true ∧ e.path ∈ if e.isDir then m.dirs.keys else m.files.keys := by
  have hdir : m.dirs.contains dir = true := by
    by_contra hno
    rw [list, if_neg hno] at h
    exact nomatch h
  obtain ⟨listed, hlist, hperm⟩ := perm_of_list hdir
  obtain rfl := Except.ok.inj (hlist.symm.trans h)
  rw [hperm.mem_iff, List.mem_append, mem_entriesAt, mem_entriesAt]
  cases e.isDir <;> simp [and_comm]

theorem has_iff_keys {e : DirEntry} :
    m.has e = true ↔ ∃ q ∈ if e.isDir then m.dirs.keys else m.files.keys, q.same e.path = true := by
  have hkeys {α : Type} {s : PathMap α} : s.contains e.path = true ↔ ∃ q ∈ s.keys, q.same e.path = true := by
    refine ⟨PathMap.mem_keys_of_contains, fun ⟨q, hq, hs⟩ => ?_⟩
    rw [← PathMap.contains_congr hs]
    exact PathMap.contains_of_mem_keys hq
  unfold has
  split
  · exact hkeys
  · exact hkeys

/-- What is listed is there. -/
theorem has_of_mem_list {entries : List DirEntry} (h : m.list dir = .ok entries) {e : DirEntry}
    (he : e ∈ entries) : m.has e = true :=
  has_iff_keys.mpr ⟨e.path, ((mem_list_iff h).mp he).2, Path.same_self _⟩

/-- What is there directly in a directory is listed. -/
theorem exists_mem_list (hd : dir.components ≠ []) (hdir : m.dirs.contains dir = true) {e : DirEntry}
    (he : m.has e = true) {c : Component} (hc : e.path.components = dir.components ++ [c]) :
    ∃ entries, m.list dir = .ok entries ∧
      ∃ e' ∈ entries, e'.isDir = e.isDir ∧ e'.path.same e.path = true := by
  obtain ⟨entries, hlist, -⟩ := perm_of_list hdir
  obtain ⟨q, hq, hs⟩ := has_iff_keys.mp he
  refine ⟨entries, hlist, ⟨q, e.isDir⟩, (mem_list_iff hlist).mpr ⟨?_, hq⟩, rfl, hs⟩
  exact (isChild_iff hd).mpr ⟨c, (Path.same_iff.mp hs).trans hc⟩

/-! ## A walk -/

/-- What a walk finds: what is at the place where it starts, and the children of the directories it has found. -/
inductive Found (m : Memory) (start : Path) : DirEntry → Prop where
  | start {isDir : Bool} (h : m.has ⟨start, isDir⟩ = true) : Found m start ⟨start, isDir⟩
  | child {dir e : DirEntry} {entries : List DirEntry} (h : Found m start dir) (hdir : dir.isDir = true)
      (hlist : m.list dir.path = .ok entries) (he : e ∈ entries) : Found m start e

theorem Found.has {start : Path} {e : DirEntry} (h : m.Found start e) : m.has e = true := by
  cases h with
  | start h => exact h
  | child _ _ hlist he => exact has_of_mem_list hlist he

/-- What is above a file or a directory is a directory. -/
theorem Sound.above (hm : m.Sound) {e : DirEntry} (he : m.has e = true) (hq : q.Above e.path) :
    m.dirs.contains q = true := by
  unfold Memory.has at he
  split at he
  · exact hm.closed _ q he hq
  · exact hm.housed _ q he hq

/-- A walk from the top of a path finds what is there. -/
theorem Sound.found (hm : m.Sound) {e : DirEntry} (he : m.has e = true) :
    ∃ e', m.Found e.path.top e' ∧ e'.isDir = e.isDir ∧ e'.path.same e.path = true := by
  -- The walk finds the parent first, which has one component less.
  induction hlength : e.path.components.length using Nat.strong_induction_on generalizing e with
  | _ n ih =>
      by_cases hshort : e.path.components.length ≤ 1
      · have hs : e.path.top.same e.path = true := by
          rw [Path.same_iff, Path.components_top, List.take_of_length_le hshort]
        exact ⟨⟨e.path.top, e.isDir⟩, .start ((has_congr hs e.isDir).trans he), rfl, hs⟩
      · obtain ⟨up, hup, hne, htop⟩ := Path.exists_parent? (Nat.lt_of_not_le hshort)
        obtain ⟨c, -, hc⟩ := Path.components_of_parent? hup
        have habove : up.Above e.path :=
          (Path.above_iff_of_parent? hup up).mpr ⟨hne, .inl (Path.same_self up)⟩
        have hdir : m.has ⟨up, true⟩ = true := hm.above he habove
        obtain ⟨d, hfound, hkind, hs⟩ := ih up.components.length (by rw [← hlength, hc]; simp) hdir rfl
        have hcomponents := Path.same_iff.mp hs
        have hthere : m.dirs.contains d.path = true := (PathMap.contains_congr hs _).trans hdir
        obtain ⟨entries, hlist, e', he', hkind', hs'⟩ :=
          exists_mem_list (hcomponents ▸ hne) hthere he (hcomponents ▸ hc)
        exact ⟨e', htop ▸ hfound.child hkind hlist he', hkind', hs'⟩

/-! ## What is not removed -/

/-- A directory with something below it is occupied. -/
theorem isOccupied_of_below (h : m.isThere p = true) (hin : dir.components <+: p.components)
    (hne : dir.components ≠ p.components) : m.isOccupied dir = true := by
  have hbelow {q : Path} (hs : q.same p = true) : q.startsWith dir = true ∧ q.same dir = false := by
    rw [Path.startsWith_iff_components, Bool.eq_false_iff, Ne, Path.same_iff, Path.same_iff.mp hs]
    exact ⟨hin, hne.symm⟩
  rw [isOccupied, Bool.or_eq_true, List.any_eq_true, List.any_eq_true]
  rcases Bool.or_eq_true_iff.mp h with hfile | hdir
  · obtain ⟨q, hq, hs⟩ := PathMap.mem_keys_of_contains hfile
    exact .inl ⟨q, hq, (hbelow hs).1⟩
  · obtain ⟨q, hq, hs⟩ := PathMap.mem_keys_of_contains hdir
    exact .inr ⟨q, hq, by simp [hbelow hs]⟩

/-- An occupied directory is not removed, and nothing else is changed. -/
theorem removeDir_of_isOccupied (h : m.isOccupied dir = true) :
    store.removeDir dir m = .error (.occupied dir) m := by
  show update (fun m => m.removeDir dir) m = _
  rw [update, removeDir, if_pos h]

/-- **Directories are closed upwards**, whatever was done to the files in memory: each place above a file or a
    directory, the empty path aside, is a directory.  So a walk from the top of a path finds what is there, as what
    it is, and a directory with anything below it is not removed. -/
theorem upward_closed (hm : m.Reachable) :
    (∀ p, m.isThere p = true → ∀ q ∈ p.ancestors.tail, q.text ≠ [] → m.dirs.contains q = true) ∧
      (∀ e, m.has e = true ↔
        ∃ e', m.Found e.path.top e' ∧ e'.isDir = e.isDir ∧ e'.path.same e.path = true) ∧
      ∀ dir p, m.isThere p = true → dir.components <+: p.components → dir.components ≠ p.components →
        store.removeDir dir m = .error (.occupied dir) m := by
  refine ⟨fun p hp q hq hne => ?_, fun e => ⟨hm.sound.found, ?_⟩, fun dir p hp hin hne => ?_⟩
  · obtain ⟨isDir, he⟩ := isThere_iff.mp hp
    have hcomponents : q.components ≠ [] := fun hnone => hne (Path.text_eq_nil_iff.mpr hnone)
    exact hm.sound.above he ((Path.above_iff_ancestors q p).mpr ⟨hcomponents, q, hq, Path.same_self q⟩)
  · rintro ⟨e', hfound, hkind, hs⟩
    rw [← show m.has ⟨e'.path, e.isDir⟩ = m.has e from has_congr hs e.isDir, ← hkind]
    exact hfound.has
  · exact removeDir_of_isOccupied (isOccupied_of_below hp hin hne)

/-- A file and its directories came and went, but for the last, and a directory with a `.` in its spelling is in a
    relative one. -/
def strewn : Memory :=
  [.write "/p/dist/a.d.ts" "x\n", .createDirs "x/./y/", .removeDir "/p/dist", .remove "/p/dist/a.d.ts",
    .removeDir "/p/dist"].foldl (fun m c => Change.apply c m) {}

theorem upward_closed_strewn : strewn.Reachable ∧
    (strewn.isThere "x//y" = true ∧ ("x" : Path) ∈ (Path.ancestors "x//y").tail ∧
      strewn.dirs.contains "x" = true) ∧
    (strewn.has ⟨"/p", true⟩ = true ∧
      ∃ e, strewn.Found (Path.top "/p") e ∧ e.isDir = true ∧ e.path.same "/p" = true) ∧
    store.removeDir "/" strewn = .error (.occupied "/") strewn := by
  have hm : strewn.Reachable := ((((Reachable.empty.step _).step _).step _).step _).step _
  obtain ⟨hclosed, hfound, hkept⟩ := upward_closed hm
  have hthere : strewn.isThere "x//y" = true := by decide +kernel
  have habove : ("x" : Path) ∈ (Path.ancestors "x//y").tail := by decide +kernel
  have hdir : strewn.has ⟨"/p", true⟩ = true := by decide +kernel
  refine ⟨hm, ⟨hthere, habove, hclosed _ hthere _ habove (by decide)⟩, ⟨hdir, (hfound _).mp hdir⟩, ?_⟩
  exact hkept "/" "/p" (by decide +kernel) (by decide) (by decide)

end Files.Memory

end Typings
